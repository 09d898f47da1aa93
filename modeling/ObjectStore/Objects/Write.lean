import ObjectStore.Error.Basic
import ObjectStore.Objects.Read
import ObjectStore.Update.Assignment

/-!
# Writing objects

Inserting, updating and deleting the rows of a class. Operators of a new object stand for the values
that they yield there.
-/

namespace ObjectStore.Objects

/-- The column of a member of a new object; relations have none. -/
def insertColumn (className : String) (storage : Schema) (member : String × Json) :
    Result (Option (String × Sql)) :=
  match storage.field? member.1 with
  | none => .error (.invalidKeyName (.undefinedField member.1 className))
  | some type => do pure ((← type.encode member.2).map fun sql => (member.1, sql))

/-- The columns of a new object. -/
def insertColumns (className : String) (schema : Schema) (object : Object) :
    Result (List (String × Sql)) := do
  pure ((← object.mapM (insertColumn className schema.forStorage)).filterMap id)

/-- Inserts an object, and gives it back with its operators applied. -/
def insert (className : String) (schema : Schema) (object : Object) : Work Object := do
  let object ← Work.ofResult (Update.flatten object)
  let columns ← Work.ofResult (insertColumns className schema object)
  let _ ← (Work.execute (.insert className columns)).rewordFailure Error.ofWrite
  pure object

/-- Sends a statement that gives back the rows that it changed. -/
def changed (schema : Schema) (statement : RowStatement) : Work (List Object) := do
  let rows ← (Work.query (.rows statement)).rewordFailure Error.ofWrite
  Work.ofResult (decodeRows schema rows)

/-- Updates all objects that a query matches, and gives them back. -/
def updateAll (className : String) (schema : Schema) (query update : Object) :
    Work (List Object) := do
  let filter ← filterOf schema query false
  let assignments ← Work.ofResult (Update.setClause schema update)
  changed schema ⟨className, filter, .update assignments⟩

/-- Updates one of the objects that a query matches, and gives it back. -/
def updateOne (className : String) (schema : Schema) (query update : Object) :
    Work (Option Object) := do
  let filter ← filterOf schema query false
  let assignments ← Work.ofResult (Update.setClause schema update)
  pure (← changed schema ⟨className, filter, .updateOne assignments⟩).head?

/-- Whether a member of a query names a value and not a constraint. -/
def isLiteral (member : String × Json) : Bool :=
  let isOperator (key : String) : Bool := Text.startsWith key "$"
  !isOperator member.1 && !((member.2.obj?.getD []).any fun (key, _) => isOperator key)

/-- The object that a query and an update describe together. -/
def described (query update : Object) : Object := Dict.merge (query.filter isLiteral) update

/-- Whether an error is that of a duplicate value. -/
def isDuplicate : Error → Bool
  | .duplicateValue _ => true
  | _ => false

/-- Creates the object that a query and an update describe; if it exists already, updates one of
those that the query matches. -/
def upsert (className : String) (schema : Schema) (query update : Object) :
    Work (Option Object) :=
  Work.recover (do pure (some (← insert className schema (described query update)))) fun e =>
    if isDuplicate e then updateOne className schema query update else throw e

/-- Deletes the objects that a query matches, of which there must be one. -/
def delete (className : String) (schema : Schema) (query : Object) : Work Nat := do
  let filter ← filterOf schema query false
  let deleted ← Work.recover
    (do pure (some (← Work.execute (.rows ⟨className, filter, .delete⟩)))) fun e =>
      if e.isUndefinedTable then pure none else throw e
  match deleted with
  | none => pure 0
  | some 0 => throw (.objectNotFound .noObject)
  | some n => pure n

end ObjectStore.Objects
