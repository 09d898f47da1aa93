import ObjectStore.Json.Basic
import ObjectStore.Schema.Basic

/-!
# Permissions by pointer

Where the groups of a caller are not granted an operation by themselves, a field of the object may
grant it to the user that it points to. The query is then restricted to the objects that point to
the user in one of these fields; without exactly one user among the groups nothing can match.
-/

namespace ObjectStore.Access

/-!
## Redundant branches

A branch that asks for everything another branch asks for adds nothing to a disjunction, and the
other one adds nothing to a conjunction. Such branches are dropped, one at a time, always the first
that is found; a combinator that is left with one branch gives way to it.
-/

/-- How many constraints a branch has. -/
def constraintCount (branch : Json) : Nat := (branch.obj?.getD []).length

/-- Whether every constraint of one branch is also one of another. -/
def isPartOf (narrow wide : Json) : Bool :=
  match narrow, wide with
  | .obj narrow, .obj wide => narrow.all fun (key, value) => Dict.get? wide key == some value
  | _, _ => false

/-- Which of two branches at different places is redundant: of a pair where one is a part of the
other, the wider one if `dropWide` and else the narrower one. -/
def redundantOfPair? (dropWide : Bool) (first second : Json × Nat) : Option Nat :=
  let (narrow, wide) :=
    if constraintCount first.1 > constraintCount second.1 then (second, first) else (first, second)
  if isPartOf narrow.1 wide.1 then some (if dropWide then wide.2 else narrow.2) else none

/-- The place of the first redundant branch, in the order of pairs of places. -/
def redundant? (dropWide : Bool) : List (Json × Nat) → Option Nat
  | [] => none
  | first :: rest =>
    (rest.findSome? (redundantOfPair? dropWide first)).or (redundant? dropWide rest)

/-- Drops redundant branches, at most `steps` of them. -/
def dropRedundant (dropWide : Bool) : Nat → List Json → List Json
  | 0, branches => branches
  | steps + 1, branches =>
    match redundant? dropWide branches.zipIdx with
    | some place => dropRedundant dropWide steps (branches.eraseIdx place)
    | none => branches

/-- A query without the redundant branches of one of its combinators. -/
def reduceCombinator (dropWide : Bool) (key : String) (query : Object) : Object :=
  let others := query.erase key
  match query.get? key with
  | some (.arr branches) =>
    match dropRedundant dropWide branches.length branches with
    | [.obj only] => others.merge only
    | [_] => others
    | reduced => others.insert key (.arr reduced)
  | _ => others

/-- A query without the redundant branches of its `$or`. -/
def reduceOr (query : Object) : Object := reduceCombinator true "$or" query

/-- A query without the redundant branches of its `$and`. -/
def reduceAnd (query : Object) : Object := reduceCombinator false "$and" query

/-! ## Pointers -/

/-- The class of users. -/
def userClass : String := "_User"

/-- The groups that are users. -/
def users (groups : List String) : List String :=
  groups.filter fun group => !Text.startsWith group roleMark && group != publicGroup

/-- What a field must hold to point to a user. -/
def pointsTo (s : Schema) (field user : String) : Result Json :=
  let pointer := (Pointer.mk userClass user).toJson
  match s.field? field with
  | some (.pointer _) | some .object => .ok pointer
  | some .array | some (.arrayOf _) => .ok (.ofEntries [("$all", .arr [pointer])])
  | _ => .error (.internal (.pointerPermission s.className field))

/-- A query with the constraint that a field points to the user; what the query asks of the field
itself still has to hold. -/
def alternative (query : Object) (field : String) (constraint : Json) : Object :=
  if query.contains field then
    reduceAnd [("$and", .arr [.obj [(field, constraint)], .obj query])]
  else query.insert field constraint

/-- A query that one of some alternatives answers. -/
def anyAlternative : List Object → Object
  | [only] => only
  | alternatives => reduceOr [("$or", .arr (alternatives.map .obj))]

/-- A query restricted to what pointer fields grant, if only these grant the operation; nothing if
no object can match. -/
def restrictToPointers (s : Schema) (op : Operation) (query : Object) (groups : List String) :
    Result (Option Object) :=
  if Permissions.allows s.permissions groups op then .ok (some query)
  else
    let fields := (s.permissions.map (·.userFields op)).getD []
    if fields.isEmpty then .ok (some query)
    else match users groups with
      | [user] => do
        let alternatives ← fields.mapM fun field => do
          pure (alternative query field (← pointsTo s field user))
        pure (some (anyAlternative alternatives))
      | _ => .ok none

end ObjectStore.Access
