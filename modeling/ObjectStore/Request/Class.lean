import ObjectStore.Classes.Delete
import ObjectStore.Classes.Loaded
import ObjectStore.Objects.Write
import ObjectStore.Request.Prepare

/-!
# Requests on whole classes

Dropping a class that has no objects, and deleting all objects of a class.
-/

namespace ObjectStore.Request

/-- Drops a class with its join tables; it must have no objects. -/
def deleteClass (store : Store) (className : String) : Work Unit := do
  let schema := (← Classes.loaded? className).getD (.ofClass className)
  let count ← Objects.count store.settings className schema [] false
  if 0 < count then throw (.operationForbidden (.classNotEmpty className count))
  Classes.delete className
  Classes.dropJoinTables schema
  Classes.reload store.source
  Work.notify (.droppedClass className)

/-- Whether an error is that of an object that is not there. -/
def isAbsence : Error → Bool
  | .objectNotFound _ => true
  | _ => false

/-- Deletes all objects of a class, if there is such a class. -/
def purge (className : String) : Work Unit := do
  match ← Classes.loaded? className with
  | none => pure ()
  | some schema =>
    Work.recover (do let _ ← Objects.delete className schema []) fun e =>
      if isAbsence e then pure () else throw e

end ObjectStore.Request
