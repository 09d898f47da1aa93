import ObjectStore.Error.Basic

/-!
# Class-level permissions

A permission table says for each operation who may perform it: everyone, holders of a role, users,
and users that a pointer field of the object names. An operation without an entry is open to all.

A caller takes part with a list of groups: `*`, the roles it holds as `role:<name>`, and its user
id.
-/

namespace ObjectStore

/-- The group of everyone. -/
def publicGroup : String := "*"

/-- How the groups of roles start. -/
def roleMark : String := "role:"

/-- Who may perform one operation. -/
structure Grants where
  requiresAuthentication : Bool
  pointerFields : List String
  groups : Dict Bool
  deriving Repr, DecidableEq

namespace Grants

/-- A grant to no one. -/
def none : Grants := ⟨false, [], []⟩

/-- A grant to everyone. -/
def toAll : Grants := ⟨false, [], [(publicGroup, true)]⟩

/-- Whether a group is granted. -/
def grantsGroup (g : Grants) (group : String) : Bool := (g.groups.get? group).getD false

/-- Whether everyone, or one of some groups, is granted. -/
def allows (g : Grants) (groups : List String) : Bool :=
  g.grantsGroup publicGroup || groups.any g.grantsGroup

end Grants

/-- Who may perform which operation on a class, and which fields are kept from whom. -/
structure Permissions where
  find : Option Grants := none
  get : Option Grants := none
  count : Option Grants := none
  create : Option Grants := none
  update : Option Grants := none
  delete : Option Grants := none
  addField : Option Grants := none
  protectedFields : Dict (List String) := []
  readUserFields : List String := []
  writeUserFields : List String := []
  deriving Repr, DecidableEq

namespace Permissions

/-- Every operation open to everyone. -/
def everyone : Permissions :=
  { find := some .toAll, get := some .toAll, count := some .toAll, create := some .toAll
    update := some .toAll, delete := some .toAll, addField := some .toAll }

/-- The entry of an operation. -/
def grants? (p : Permissions) : Operation → Option Grants
  | .get => p.get
  | .find => p.find
  | .count => p.count
  | .create => p.create
  | .update => p.update
  | .delete => p.delete
  | .addField => p.addField

/-- The fields whose pointers may grant an operation: those of its entry, then those that grant
reading or writing in general. -/
def userFields (p : Permissions) (op : Operation) : List String :=
  let own := ((p.grants? op).map Grants.pointerFields).getD []
  let shared := if op.isRead then p.readUserFields else p.writeUserFields
  shared.foldl (fun fields field => if fields.contains field then fields else fields ++ [field]) own

/-- Whether some groups are granted an operation by themselves. -/
def allows (p : Option Permissions) (groups : List String) (op : Operation) : Bool :=
  match p.bind (·.grants? op) with
  | none => true
  | some grants => grants.allows groups

/-- Whether the groups are those of a caller that nobody knows. -/
def isAnonymous (groups : List String) : Bool :=
  match groups with
  | [] => true
  | [group] => group == publicGroup
  | _ => false

/-- Refuses an operation that neither the groups nor any pointer field can grant. Whoever must be
known is told so; creation is never granted by a pointer field. -/
def validate (p : Option Permissions) (className : String) (groups : List String)
    (op : Operation) : Result Unit :=
  if allows p groups op then .ok ()
  else match p with
    | none => .ok ()
    | some table =>
      if ((table.grants? op).map Grants.requiresAuthentication).getD false then
        if isAnonymous groups then .error (.objectNotFound .authenticationRequired) else .ok ()
      else if op ≠ .create ∧ !(table.userFields op).isEmpty then .ok ()
      else .error (.operationForbidden (.denied op className))

end Permissions

end ObjectStore
