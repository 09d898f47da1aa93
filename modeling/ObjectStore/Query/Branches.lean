import ObjectStore.Json.Basic

/-!
# Below `$or` and `$and`

A change of the constraints that stand side by side is carried to every branch of `$or` and `$and`,
at any depth: branches first, those of `$or` before those of `$and`, and then the query itself.
-/

namespace ObjectStore.Query

variable {m : Type → Type} [Monad m]

/-- An object with a list stored under a key, if there is one to store. -/
def putList (fields : Object) (key : String) : Option (List Json) → Object
  | some items => fields.insert key (.arr items)
  | none => fields

mutual

/-- Changes a branch and all below it; what is no object stays as it is. -/
def descendBranch (own : Object → m Object) : Json → m Json
  | .obj fields => do
    let ors ← descendUnder own "$or" fields
    let ands ← descendUnder own "$and" fields
    pure (.obj (← own (putList (putList fields "$or" ors) "$and" ands)))
  | other => pure other

/-- Changes the branches that are listed under a key, if there is such a list. -/
def descendUnder (own : Object → m Object) (key : String) :
    List (String × Json) → m (Option (List Json))
  | [] => pure none
  | (name, value) :: rest =>
    if name = key then descendList own value else descendUnder own key rest

/-- Changes the branches of a list. -/
def descendList (own : Object → m Object) : Json → m (Option (List Json))
  | .arr branches => do pure (some (← descendBranches own branches))
  | _ => pure none

/-- Changes branches one after another. -/
def descendBranches (own : Object → m Object) : List Json → m (List Json)
  | [] => pure []
  | branch :: rest => do
    let branch ← descendBranch own branch
    pure (branch :: (← descendBranches own rest))

end

/-- Changes a query with all its branches. -/
def descend (own : Object → m Object) (query : Object) : m Object := do
  let ors ← descendUnder own "$or" query
  let ands ← descendUnder own "$and" query
  own (putList (putList query "$or" ors) "$and" ands)

end ObjectStore.Query
