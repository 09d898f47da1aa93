import ObjectStore.Error.Basic
import ObjectStore.Value.Tag

/-!
# Update operators

A member of an update is a literal or an operator. On a fresh object an operator stands for the
value that it yields there: an increment for its amount, additions for the added elements, a
removal of elements for the empty list, and a deletion for nothing.
-/

namespace ObjectStore

/-- The operators on the elements of a list. -/
inductive ListOperator where
  | add
  | addUnique
  | remove
  deriving Repr, DecidableEq

namespace ListOperator

/-- The tag of a list operator. -/
def tag : ListOperator → String
  | .add => "Add"
  | .addUnique => "AddUnique"
  | .remove => "Remove"

/-- The list operator of a tag. -/
def ofTag? : String → Option ListOperator
  | "Add" => some .add
  | "AddUnique" => some .addUnique
  | "Remove" => some .remove
  | _ => none

/-- The function that applies a list operator to JSON. -/
def function : ListOperator → String
  | .add => "array_add"
  | .addUnique => "array_add_unique"
  | .remove => "array_remove"

/-- What a list operator with some elements yields on no list. -/
def onNothing (elements : List Json) : ListOperator → List Json
  | .add | .addUnique => elements
  | .remove => []

end ListOperator

namespace Update

/-- The amount of an increment. -/
def amount (operator : Json) : Result Float :=
  match (operator.get? "amount").bind Json.toFloat? with
  | some amount => .ok amount
  | none => .error (.invalidJson .incrementAmount)

/-- The elements of a list operator. -/
def elements (operator : Json) : Result (List Json) :=
  match (operator.get? "objects").bind Json.arr? with
  | some elements => .ok elements
  | none => .error (.invalidJson .operatorObjects)

/-- The value of an operator on a fresh object, if any. -/
def freshValue (operator : Json) (tag : String) : Result (Option Json) :=
  match tag, ListOperator.ofTag? tag with
  | _, some list => do pure (some (.arr (list.onNothing (← elements operator))))
  | "Delete", _ => .ok none
  | "Increment", _ =>
    match (operator.get? "amount").filter Json.isNumber with
    | some amount => .ok (some amount)
    | none => .error (.invalidJson .incrementAmount)
  | _, _ => .error (.operationForbidden (.createOperator tag))

/-- An object with the values that its operators have on a fresh object. -/
def flatten : Object → Result Object
  | [] => .ok []
  | (key, value) :: rest => do
    let fresh ← match value.opTag? with
      | some tag => freshValue value tag
      | none => .ok (some value)
    let others ← flatten rest
    pure ((fresh.toList.map fun value => (key, value)) ++ others)

/-! ## Nested keys -/

/-- Whether a key may stand below the top level of an object. -/
def isNestedKey (key : String) : Bool := !Text.contains key "$" && !Text.contains key "."

mutual

/-- Whether all keys inside a value may stand there. -/
def hasNestedKeys : Json → Bool
  | .obj fields => membersHaveNestedKeys fields
  | .arr items => itemsHaveNestedKeys items
  | _ => true

/-- Whether all items have only keys that may stand there. -/
def itemsHaveNestedKeys : List Json → Bool
  | [] => true
  | item :: rest => hasNestedKeys item && itemsHaveNestedKeys rest

/-- Whether all members have keys that may stand there, at every depth. -/
def membersHaveNestedKeys : List (String × Json) → Bool
  | [] => true
  | (key, value) :: rest =>
    isNestedKey key && hasNestedKeys value && membersHaveNestedKeys rest

end

/-- Refuses an object with a key below its top level that may not stand there. -/
def validateNestedKeys (object : Object) : Result Unit :=
  if object.all fun member => hasNestedKeys member.2 then .ok () else .error .invalidNestedKey

end Update

end ObjectStore
