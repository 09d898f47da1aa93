import ObjectStore.Schema.Permission

/-!
# Callers

A master caller is bound by no permissions. Everyone else takes part with its groups: `*`, the roles
it holds and its user id.
-/

namespace ObjectStore

/-- Whoever issues an operation. -/
inductive Caller where
  | master
  | anonymous
  | user (id : String) (roles : List String)
  deriving Repr, DecidableEq

namespace Caller

/-- The group of a role, given with or without its mark. -/
def roleGroup (role : String) : String :=
  if Text.startsWith role roleMark then role else roleMark ++ role

/-- A user with the names of its roles. -/
def ofUser (id : String) (roles : List String) : Caller := .user id (roles.map roleGroup)

/-- Whether the caller is a master. -/
def isMaster : Caller → Bool
  | .master => true
  | _ => false

/-- The id of a user. -/
def userId? : Caller → Option String
  | .user id _ => some id
  | _ => none

/-- The groups of the roles that a caller holds. -/
def roles : Caller → List String
  | .user _ roles => roles
  | _ => []

/-- The groups of a caller; masters have none, as they are bound by no permissions. -/
def groups? : Caller → Option (List String)
  | .master => none
  | .anonymous => some [publicGroup]
  | .user id roles => some (publicGroup :: roles ++ [id])

end Caller

end ObjectStore
