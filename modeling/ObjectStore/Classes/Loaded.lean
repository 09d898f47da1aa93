import ObjectStore.Classes.Document

/-!
# Loaded classes

The classes that a session knows. They are either given once and for all, or loaded from what is
recorded; in the latter case a class is created when it is first written to.
-/

namespace ObjectStore.Classes

/-- Where the loaded classes come from. -/
inductive ClassSource where
  | given
  | recorded
  deriving Repr, DecidableEq

/-- Classes by name; of two with one name the later counts. -/
def byName (schemas : List Schema) : Dict Schema :=
  Dict.ofList (schemas.map fun schema => (schema.className, schema))

/-- A loaded class. -/
def loaded? (className : String) : Work (Option Schema) := do
  pure ((← Work.classes).get? className)

/-- All loaded classes, by name. -/
def allLoaded : Work (List Schema) := do pure (← Work.classes).values

/-- Loads a class in place of the one with its name. -/
def load (schema : Schema) : Work Unit :=
  Work.changeClasses fun classes => classes.insert schema.className schema

/-- Forgets a loaded class, and tells which it was. -/
def unload (className : String) : Work (Option Schema) := do
  let schema ← loaded? className
  Work.changeClasses fun classes => classes.erase className
  pure schema

/-- Loads all recorded classes. -/
def reload : ClassSource → Work Unit
  | .given => pure ()
  | .recorded => do
    let schemas ← allRecorded
    Work.changeClasses fun _ => byName schemas

/-- A loaded class, which is created if it may be and is not there. -/
def require (source : ClassSource) (className : String) : Work Schema := do
  match ← loaded? className, source with
  | some schema, _ => pure schema
  | none, .given => throw (.invalidQuery (.unknownClass className))
  | none, .recorded => do
    let schema ← create (.ofClass className)
    Work.notify (.createdOnWrite className)
    load schema
    pure schema

/-- The type of a field of a loaded class. -/
def fieldType? (className field : String) : Work (Option FieldType) := do
  pure ((← loaded? className).bind (·.field? field))

/-- The permissions of a loaded class. -/
def permissions? (className : String) : Work (Option Permissions) := do
  pure ((← loaded? className).bind (·.permissions))

/-- Refuses an operation that some groups may not perform on a class. -/
def authorize (className : String) (groups : List String) (op : Operation) : Work Unit := do
  Work.ofResult (Permissions.validate (← permissions? className) className groups op)

end ObjectStore.Classes
