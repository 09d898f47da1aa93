import ObjectStore.Engine.Session
import ObjectStore.Schema.Document

/-!
# Recorded classes

What the metadata table and the engine's catalogue tell of classes, and simple changes of the
schema document of one class.
-/

namespace ObjectStore.Classes

/-- Whether there is a table for a class. -/
def hasTable (className : String) : Work Bool := do
  pure !(← Work.query (.metadata (.tableExists className))).isEmpty

/-- The schema document that is recorded for a class, if any. -/
def document? (className : String) : Work (Option Json) := do
  let rows ← (Work.query (.metadata (.document className))).orIfUndefined []
  pure (rows.head?.bind (·.json? "schema"))

/-- The schema that a document describes for a class. -/
def ofDocument (className : String) (document : Json) : Result Schema :=
  if document.isNull then .ok { className }
  else match Schema.ofJson? document with
    | some schema => .ok { schema with className }
    | none => .error (.invalidJson .document)

/-- The recorded schema of a class, if any. -/
def recorded? (className : String) : Work (Option Schema) := do
  match ← document? className with
  | none => pure none
  | some document => do pure (some (← Work.ofResult (ofDocument className document)))

/-- The class that a row of the metadata table records. -/
def ofRow (row : Row) : Result Schema := do
  ofDocument (← row.text "className") ((row.json? "schema").getD .null)

/-- All recorded classes. -/
def allRecorded : Work (List Schema) := do
  let rows ← (Work.query (.metadata .documents)).orIfUndefined []
  Work.ofResult (rows.mapM ofRow)

/-- Whether the schema document of a class records a field. -/
def recordsField (className field : String) : Work Bool := do
  let document ← document? className
  pure ((document.bind (·.get? "fields")).bind (·.get? field)).isSome

/-- The columns of the table of a class. -/
def tableColumns (className : String) : Work (List String) := do
  let rows ← Work.query (.metadata (.columns className))
  Work.ofResult (rows.mapM (·.text "column_name"))

/-- Sends a change of the metadata table. -/
def changeMetadata (statement : MetadataStatement) : Work Unit := do
  let _ ← Work.execute (.metadata statement)

/-- Records a field that the document of a class does not have. -/
def recordField (className field : String) (type : FieldType) : Work Unit :=
  changeMetadata (.recordField className field type)

/-- Records a new type or new options of a field. -/
def setField (className field : String) (type : FieldType) : Work Unit :=
  changeMetadata (.setField className field type)

/-- Records the permissions of a class. -/
def setPermissions (className : String) (permissions : Permissions) : Work Unit :=
  changeMetadata (.setPart className "classLevelPermissions" permissions.toJson)

/-- Records the indexes of a class. -/
def setIndexes (className : String) (indexes : Dict (Dict Json)) : Work Unit :=
  changeMetadata (.setPart className "indexes" (Schema.indexesToJson indexes))

/-!
## Creating classes and fields

A class is a table, a join table for each of its relations, and a schema document. Other requests
may create the same things at the same time, so tables and columns that exist already are passed
over, each under a savepoint of its own.
-/

/-- How the engine fails when a table is created twice at a time. -/
def tableRaces : List SqlState := [.duplicateTable, .duplicateObject, .uniqueViolation]

/-- The columns of a class, those of permissions among them. -/
def columns (schema : Schema) : List (String × ColumnType) :=
  schema.forStorage.fields.filterMap fun (name, type) => type.column?.map fun column =>
    (name, column)

/-- Creates a join table. -/
def createJoinTable (table : JoinTable) : Work Unit := do
  let _ ← Work.executeTolerant (.createJoinTable table) tableRaces

/-- Creates the table of a class and its join tables. -/
def createTables (schema : Schema) : Work Unit := do
  if ← Work.executeTolerant (.createTable schema.className (columns schema)) tableRaces then
    Work.notify (.createdTable schema.className)
  schema.joinTables.forM createJoinTable

/-- Creates the tables of a class and records it. -/
def createAndRecord (schema : Schema) : Work Unit := do
  createTables schema
  changeMetadata (.record schema)

/-- Creates a class. -/
def create (schema : Schema) : Work Schema := do
  (createAndRecord schema).transaction
  Work.notify (.createdClass schema.className)
  pure schema

/-- Creates the tables of a class without recording it. -/
def createTable (schema : Schema) : Work Unit := (createTables schema).transaction

/-- The class that is created when a field is added to a table that is missing. -/
def classWithField (className field : String) (type : FieldType) : Schema :=
  (Schema.ofClass className).withField field type

/-- Adds a column to a class, or creates the class if its table is missing; tells whether it did. -/
def addColumn (className field : String) (type : FieldType) (column : ColumnType) : Work Bool :=
  Work.recover
    (do
      let _ ← Work.executeTolerant (.addColumn className field column) [.duplicateColumn]
      pure false)
    fun e =>
      if e.isUndefinedTable then do
        Work.notify (.tableMissing className field)
        createAndRecord (classWithField className field type)
        pure true
      else throw e

/-- Adds the column or the join table of a field; tells whether the class was created for it, with
the field recorded. -/
def addStorage (className field : String) (type : FieldType) : Work Bool :=
  match type.column? with
  | none => do
    createJoinTable ⟨className, field⟩
    pure false
  | some column => addColumn className field type column

/-- Adds a field to a class, which must not have recorded it. -/
def addField (className field : String) (type : FieldType) : Work Unit :=
  Work.transaction do
    if ← addStorage className field type then return
    if ← recordsField className field then throw (.internal (.fieldRecorded className field))
    recordField className field type

/-- Adds what a field needs to a class whose table has some columns. -/
def upgradeField (className : String) (existing : List String) (field : String × FieldType) :
    Work Unit := do
  let (name, type) := field
  if type.isRelation then createJoinTable ⟨className, name⟩
  else if existing.contains name then return
  else if ← addStorage className name type then return
  else if ← recordsField className name then return
  else recordField className name type

/-- Adds whatever a class has and its tables lack. -/
def upgrade (schema : Schema) : Work Unit :=
  Work.transaction do
    createTables schema
    let existing ← tableColumns schema.className
    schema.forStorage.fields.forM (upgradeField schema.className existing)

end ObjectStore.Classes
