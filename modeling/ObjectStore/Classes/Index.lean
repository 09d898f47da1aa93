import ObjectStore.Classes.Document
import ObjectStore.Error.Basic

/-!
# Indexes

Creating and dropping indexes. A set of changes to the indexes of a class is checked as a whole
before any of them is made: an index is not replaced, only existing ones are deleted, the index of
the ids stays, and new indexes are on fields that the class has.
-/

namespace ObjectStore.Classes

/-- A named index on columns. -/
structure IndexSpec where
  name : String
  columns : List String
  deriving Repr, DecidableEq

/-- An index as the engine tells it. -/
structure IndexInfo where
  name : String
  definition : String
  deriving Repr, DecidableEq

/-- The index that a row of the catalogue tells. -/
def indexOfRow (row : Row) : Result IndexInfo := do
  let name ← row.text "indexname"
  pure ⟨name, ← row.text "indexdef"⟩

/-- The indexes of a table. -/
def indexes (className : String) : Work (List IndexInfo) := do
  let rows ← Work.query (.metadata (.indexes className))
  Work.ofResult (rows.mapM indexOfRow)

/-- Creates an index, unless there is one of its name. -/
def createIndex (className : String) (spec : IndexSpec) : Work Unit := do
  let _ ← Work.executeTolerant (.createIndex spec.name className spec.columns) [.duplicateTable]

/-- Drops an index, if there is one. -/
def dropIndex (name : String) : Work Unit := do
  let _ ← Work.execute (.table (.dropIndex name))

/-- Creates indexes, all or none. -/
def createIndexes (className : String) (specs : List IndexSpec) : Work Unit :=
  (specs.forM (createIndex className)).transaction

/-- Drops indexes, all or none. -/
def dropIndexes (names : List String) : Work Unit := (names.forM dropIndex).transaction

/-- The name of the index that keeps fields of a class unique. -/
def uniqueIndexName (className : String) (fields : List String) : String :=
  className ++ "_" ++ uniqueMark ++ Text.join "_" fields

/-- Keeps fields of a class unique. -/
def ensureUnique (className : String) (fields : List String) : Work Unit :=
  Work.rewordFailure Error.ofWrite do
    let _ ← Work.executeTolerant
      (.createUniqueIndex (uniqueIndexName className fields) className fields)
      [.duplicateTable, .duplicateObject]

/-- The name of an index on fields of a class that is given none. -/
def defaultIndexName (className : String) (fields : List String) : String :=
  className ++ "_default_" ++ Text.join "_" (fields.mergeSort fun a b => !(b < a))

/-- Creates an index on fields of a class, on their lower case if case is to be ignored. -/
def ensureIndex (className : String) (fields : List String) (name : Option String)
    (ignoreCase : Bool) : Work Unit :=
  Work.rewordFailure Error.ofWrite do
    let _ ← Work.executeTolerant
      (.ensureIndex (name.getD (defaultIndexName className fields)) className fields ignoreCase)
      [.duplicateTable]

/-! ## Sets of changes -/

/-- The index of the ids. -/
def idIndexName : String := "_id_"

/-- The indexes of a class that has recorded none. -/
def initialIndexes : Dict (Dict Json) := [(idIndexName, [("_id", .int 1)])]

/-- Changes to indexes: what comes out, and what is to be created and deleted for it. -/
structure IndexChanges where
  result : Dict (Dict Json)
  created : List IndexSpec := []
  deleted : List String := []

/-- The first column of an index that the class does not have. -/
def unknownColumn? (fields : Dict FieldType) (columns : Object) : Option String :=
  columns.keys.find? fun column => !fields.contains column

namespace IndexChanges

/-- The changes with the deletion of an index. -/
def delete (changes : IndexChanges) (name : String) : Result IndexChanges :=
  if !changes.result.contains name then .error (.invalidQuery (.indexMissing name))
  else if name = idIndexName then .error (.invalidQuery .idIndexKept)
  else .ok { changes with
    result := changes.result.erase name
    deleted := changes.deleted ++ [name] }

/-- The changes with the creation of an index. -/
def create (fields : Dict FieldType) (changes : IndexChanges) (name : String) (value : Json) :
    Result IndexChanges :=
  if changes.result.contains name then .error (.invalidQuery (.indexExists name))
  else match value.obj? with
    | none => .error (.invalidQuery (.indexNotMap name))
    | some columns =>
      match unknownColumn? fields columns with
      | some column => .error (.invalidQuery (.indexField column))
      | none => .ok { changes with
        result := changes.result.insert name columns
        created := changes.created ++ [⟨name, columns.keys⟩] }

/-- The changes with one more submitted member. -/
def add (fields : Dict FieldType) (changes : IndexChanges) (member : String × Json) :
    Result IndexChanges :=
  if member.2.opTag? == some "Delete" then changes.delete member.1
  else changes.create fields member.1 member.2

/-- The changes that a submitted set asks for. -/
def ofSubmitted (submitted : Object) (existing : Dict (Dict Json)) (fields : Dict FieldType) :
    Result IndexChanges :=
  submitted.foldlM (add fields)
    { result := if existing.isEmpty then initialIndexes else existing }

end IndexChanges

/-- Makes a submitted set of changes to the indexes of a class, and records what comes out. -/
def changeIndexes (className : String) (submitted : Object) (existing : Dict (Dict Json))
    (fields : Dict FieldType) : Work (Dict (Dict Json)) := do
  let changes ← Work.ofResult (IndexChanges.ofSubmitted submitted existing fields)
  Work.transaction do
    changes.created.forM (createIndex className)
    changes.deleted.forM dropIndex
    setIndexes className changes.result
  pure changes.result

end ObjectStore.Classes
