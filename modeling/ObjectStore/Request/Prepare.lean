import ObjectStore.Access.Acl
import ObjectStore.Access.Pointer
import ObjectStore.Access.Protected
import ObjectStore.Access.Validate
import ObjectStore.Classes.Loaded
import ObjectStore.Objects.Options
import ObjectStore.Relation.Resolve

/-!
# Preparing requests

Before a request reaches the rows of a class, the caller's groups must be granted the operation, and
the query is restricted: to what pointer fields grant, and to the rows whose lists name one of the
groups. A master is bound by none of this.
-/

namespace ObjectStore

/-- A store: its switches, and where its classes come from. -/
structure Store where
  settings : Settings
  source : Classes.ClassSource
  deriving Repr, DecidableEq

namespace Request

/-- A query that is ready to read rows, with the class and the fields to keep from the caller. -/
structure PreparedRead where
  schema : Schema
  query : Object
  hidden : Option (List String)

/-- The join tables of all loaded classes. -/
def joinTables : Work JoinTables := do pure (.ofSchemas (← Classes.allLoaded))

/-- Refuses an operation that a caller may not perform on a class. -/
def authorize (className : String) (caller : Caller) (op : Operation) : Work Unit :=
  match caller.groups? with
  | some groups => Classes.authorize className groups op
  | none => pure ()

/-- A query restricted to the rows that some groups may read or change. -/
def restrictTo (op : Operation) (query : Object) (groups : List String) : Object :=
  match op with
  | .update | .delete => Access.restrictToWriters query groups
  | _ => Access.restrictToReaders query groups

/-- A query restricted to what a caller may see, and the fields to keep from the caller; nothing if
the caller can see nothing. -/
def restrictRead (schema : Schema) (op : Operation) (caller : Caller) (query : Object) :
    Result (Option (Object × Option (List String))) :=
  match caller.groups? with
  | none => .ok (some (query, none))
  | some groups => do
    Access.refuseWriterQuery query
    match ← Access.restrictToPointers schema op query groups with
    | none => pure none
    | some permitted =>
      let hidden := Access.protectedFields? schema.permissions permitted caller
      pure (some (restrictTo op permitted groups, hidden))

/-- A query with its constraints on relations resolved. -/
def resolveRelations (className : String) (schema : Schema) (query : Object) : Work Object := do
  let tables ← joinTables
  let query ← tables.resolveRelatedTo query
  tables.resolveFields className schema query

/-- Prepares a query to read rows of a class; nothing if there is no such class, or nothing in it
that the caller can see. -/
def prepareRead (store : Store) (className : String) (query : Object) (op : Operation)
    (caller : Caller) : Work (Option PreparedRead) := do
  match ← Classes.loaded? className with
  | none => pure none
  | some schema =>
    authorize className caller op
    let query ← resolveRelations className schema query
    match ← Work.ofResult (restrictRead schema op caller query) with
    | none => pure none
    | some (restricted, hidden) =>
      let query ← Work.ofResult (Access.validate store.settings.movesOrConstraints restricted)
      pure (some ⟨schema, query, hidden⟩)

/-- A query restricted to the rows that a caller may change. -/
def restrictWrite (schema : Schema) (op : Operation) (caller : Caller) (query : Object) :
    Result Object :=
  match caller.groups? with
  | none => .ok query
  | some groups => do
    Access.refuseWriterQuery query
    match ← Access.restrictToPointers schema op query groups with
    | none => throw (.objectNotFound .noObject)
    | some permitted => pure (Access.restrictToWriters permitted groups)

/-- A query that is ready to change rows. -/
def prepareWrite (schema : Schema) (op : Operation) (caller : Caller) (query : Object) :
    Result Object := do
  Access.validate false (← restrictWrite schema op caller query)

end Request

end ObjectStore
