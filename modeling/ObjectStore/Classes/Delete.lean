import ObjectStore.Classes.Document

/-!
# Deleting classes and fields

Tables go together with what is recorded of them.
-/

namespace ObjectStore.Classes

/-- Drops a table, if there is one. -/
def dropTable (table : String) : Work Unit := do
  let _ ← Work.execute (.table (.dropTable table))

/-- Drops the table of a class and forgets the class. -/
def delete (className : String) : Work Unit := do
  Work.transaction do
    dropTable className
    changeMetadata (.forget className)
  Work.notify (.deletedClass className)

/-- Drops the join tables of a class. -/
def dropJoinTables (schema : Schema) : Work Unit :=
  schema.joinTables.forM fun table => dropTable table.name

/-- Drops all tables of a class. -/
def dropTables (schema : Schema) : Work Unit := do
  dropTable schema.className
  dropJoinTables schema

/-- Forgets all classes, if there is a metadata table. -/
def forgetAll : Work Unit := (changeMetadata .forgetAll).orIfUndefined ()

/-- Drops all tables of all recorded classes and forgets the classes. -/
def deleteAll : Work Unit := do
  let schemas ← allRecorded
  Work.transaction do
    schemas.forM dropTables
    forgetAll
  Work.notify (.deletedClasses schemas.length)

/-- A class without some fields. -/
def withoutFields (schema : Schema) (names : List String) : Schema :=
  { schema with fields := names.foldl Dict.erase schema.fields }

/-- The fields of a class that some names stand for, each once, in the order of the names. -/
def namedFields (schema : Schema) (names : List String) : List (String × FieldType) :=
  names.eraseDups.filterMap fun name => (schema.field? name).map fun type => (name, type)

/-- Drops columns of the table of a class, if there is one. -/
def dropColumns (className : String) (columns : List String) : Work Unit := do
  let _ ← Work.executeTolerant (.dropColumns className columns) [.undefinedTable]

/-- Drops fields of a class, with their columns and join tables. -/
def deleteFields (schema : Schema) (names : List String) : Work Schema := do
  let remaining := withoutFields schema names
  let (relations, others) := (namedFields schema names).partition fun field => field.2.isRelation
  Work.transaction do
    changeMetadata (.replace remaining)
    if !others.isEmpty then dropColumns schema.className (others.map Prod.fst)
    relations.forM fun field => dropTable (JoinTable.mk schema.className field.1).name
  pure remaining

end ObjectStore.Classes
