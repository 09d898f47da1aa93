import ObjectStore.Error.Basic
import ObjectStore.Query.Compile

/-!
# Valid queries

A query may name fields by letters, digits, underscores and dots, and besides them a few special
columns and the combinators. It may not ask for the `ACL`, its combinators must have branches, and
patterns may have known options only.

On request a valid query is also put into another form: constraints beside `$or` move into every
branch, which the engine plans better.
-/

namespace ObjectStore.Access

/-- The keys of a query that are no field names. -/
def specialKeys : List String :=
  ["$and", "$or", "$nor", readColumn, writeColumn, "_perishable_token", "_email_verify_token",
    "_email_verify_token_expires_at", "_account_lockout_expires_at", "_failed_login_count"]

/-- Whether a name starts with a letter and goes on with letters, digits, underscores and dots. -/
def isFieldName (name : String) : Bool :=
  match name.toList with
  | [] => false
  | c :: rest => c.isAlpha && rest.all fun c => c.isAlphanum || c = '_' || c = '.'

/-- Whether a query may have a key. -/
def isQueryKey (key : String) : Bool := isFieldName key || specialKeys.contains key

/-- Whether a text consists of options of a pattern, of which there is at least one. -/
def areOptions (options : String) : Bool :=
  !options.isEmpty && options.toList.all ['i', 'm', 'x', 's'].contains

/-- Refuses options of a pattern that are not known. -/
def validateOptions (value : Json) : Result Unit :=
  match (value.get? "$options").bind Json.str?, value.get? "$regex" with
  | some options, some _ =>
    if areOptions options then .ok () else .error (.invalidQuery (.regexOptions options))
  | _, _ => .ok ()

/-- Refuses a member of a query for its options or its key. -/
def validateMember (member : String × Json) : Result Unit := do
  validateOptions member.2
  if !isQueryKey member.1 then throw (.invalidKeyName (.queryKey member.1))

/-! ## Moving constraints into branches -/

/-- Whether a constraint looks near to a place. -/
def looksNear (value : Json) : Bool :=
  (value.get? "$near").isSome || (value.get? "$nearSphere").isSome

/-- A branch with one more constraint. -/
def extendBranch (key : String) (value : Json) : Json → Json
  | .obj fields => .obj (Dict.insert fields key value)
  | branch => branch

/-- The query with one constraint moved into the branches of `$or`, unless a branch has one of its
own under the same key or the constraint sorts the rows. -/
def moveIntoBranches (query : Object) (key : String) : Object :=
  match query.get? key, query.get? "$or" with
  | some value, some (.arr branches) =>
    if looksNear value || branches.any fun branch => (branch.get? key).isSome then query
    else (query.erase key).insert "$or" (.arr (branches.map (extendBranch key value)))
  | _, _ => query

/-- The query with all constraints beside `$or` moved into its branches. -/
def restructure (query : Object) : Object :=
  (query.keys.filter (· != "$or")).foldl moveIntoBranches query

/-! ## Validation -/

/-- The branches of each combinator of a query, or what is wrong with them. -/
abbrev CheckedBranches := List (String × Result (List Json))

/-- The query with the checked branches of a combinator that it still has. -/
def takeBranches (checked : CheckedBranches) (query : Object) (key : String) : Result Object :=
  match query.get? key, Dict.get? checked key with
  | some _, some branches => do pure (query.insert key (.arr (← branches)))
  | _, _ => .ok query

/-- Checks a query whose branches are checked. -/
def settle (moving : Bool) (query : Object) (checked : CheckedBranches) : Result Object := do
  if query.contains aclField then throw (.invalidQuery .aclQueried)
  let query ← takeBranches checked query "$or"
  let query := if moving && query.contains "$or" then restructure query else query
  let query ← takeBranches checked query "$and"
  let query ← takeBranches checked query "$nor"
  query.forM validateMember
  pure query

/-- Whether a combinator may have no branches. -/
def allowsNoBranches (key : String) : Bool := key != "$nor"

/-- The refusal of what is not a list of branches. -/
def branchesFault (key : String) : Error :=
  .invalidQuery (if allowsNoBranches key then .combinatorNotArray key else .emptyNor)

mutual

/-- Checks a branch of a combinator. -/
def checkBranch (moving : Bool) : Json → Result Json
  | .obj fields => do pure (.obj (← settle moving fields (checkMembers moving fields)))
  | _ => .error (.invalidQuery .branchNotObject)

/-- Checks branches one after another. -/
def checkBranches (moving : Bool) : List Json → Result (List Json)
  | [] => .ok []
  | branch :: rest => do
    let branch ← checkBranch moving branch
    pure (branch :: (← checkBranches moving rest))

/-- Checks what a combinator has for branches. -/
def checkClause (moving : Bool) (key : String) : Json → Result (List Json)
  | .arr branches =>
    if branches.isEmpty && !allowsNoBranches key then .error (branchesFault key)
    else checkBranches moving branches
  | _ => .error (branchesFault key)

/-- Checks the branches of each combinator of a query. -/
def checkMembers (moving : Bool) : List (String × Json) → CheckedBranches
  | [] => []
  | (key, value) :: rest =>
    if (Combinator.ofKey? key).isSome then
      (key, checkClause moving key value) :: checkMembers moving rest
    else checkMembers moving rest

end

/-- Checks a query, and moves the constraints beside each `$or` into its branches if asked to. -/
def validate (moving : Bool) (query : Object) : Result Object :=
  settle moving query (checkMembers moving query)

/-! ## The column of writers -/

mutual

/-- Whether a query asks for the groups that may write, at any depth. -/
def asksForWriters : Json → Bool
  | .obj fields => membersAskForWriters fields
  | _ => false

/-- Whether a member of a query, or a branch below one, asks for the groups that may write. -/
def membersAskForWriters : List (String × Json) → Bool
  | [] => false
  | (key, value) :: rest =>
    key = writeColumn || ((Combinator.ofKey? key).isSome && clauseAsksForWriters value)
      || membersAskForWriters rest

/-- Whether one of the branches of a combinator asks for the groups that may write. -/
def clauseAsksForWriters : Json → Bool
  | .arr branches => branchesAskForWriters branches
  | _ => false

/-- Whether one of some branches asks for the groups that may write. -/
def branchesAskForWriters : List Json → Bool
  | [] => false
  | branch :: rest => asksForWriters branch || branchesAskForWriters rest

end

/-- Refuses a query that asks for the groups that may write. -/
def refuseWriterQuery (query : Object) : Result Unit :=
  if membersAskForWriters query then .error (.invalidKeyName (.queryKey writeColumn)) else .ok ()

end ObjectStore.Access
