import ObjectStore.Dict

/-!
# JSON values

Documents, queries, updates and schema documents are JSON. A number is an integer or a double and
the two are different values: `1` and `1.0` are not equal. Integers run from `-2^63` to `2^64 - 1`;
what lies outside, has a fraction or an exponent, or is written `-0`, is a double.

Objects are dictionaries, so the order in which a client wrote the keys is not part of the value.
-/

namespace ObjectStore

/-- A JSON value. -/
inductive Json where
  | null
  | bool (b : Bool)
  | int (n : Int)
  | double (x : Float)
  | str (s : String)
  | arr (items : List Json)
  | obj (fields : List (String × Json))
  deriving Inhabited

/-- A JSON object. -/
abbrev Object := Dict Json

namespace Json

mutual

/-- Structural equality; doubles are compared as numbers, so the two zeros are equal. -/
def beq : Json → Json → Bool
  | .null, .null => true
  | .bool a, .bool b => a == b
  | .int a, .int b => a == b
  | .double a, .double b => a == b
  | .str a, .str b => a == b
  | .arr a, .arr b => beqItems a b
  | .obj a, .obj b => beqFields a b
  | _, _ => false

/-- Equality of arrays, item by item. -/
def beqItems : List Json → List Json → Bool
  | [], [] => true
  | a :: as, b :: bs => beq a b && beqItems as bs
  | _, _ => false

/-- Equality of objects, entry by entry. -/
def beqFields : List (String × Json) → List (String × Json) → Bool
  | [], [] => true
  | (k, a) :: as, (l, b) :: bs => k == l && beq a b && beqFields as bs
  | _, _ => false

end

instance : BEq Json := ⟨beq⟩

/-- The member of an object under a key; other values have no members. -/
def get? : Json → String → Option Json
  | .obj fields, key => Dict.get? fields key
  | _, _ => none

/-- The text of a string. -/
def str? : Json → Option String
  | .str s => some s
  | _ => none

/-- The flag of a boolean. -/
def bool? : Json → Option Bool
  | .bool b => some b
  | _ => none

/-- The items of an array. -/
def arr? : Json → Option (List Json)
  | .arr items => some items
  | _ => none

/-- The members of an object. -/
def obj? : Json → Option Object
  | .obj fields => some fields
  | _ => none

/-- A number as the nearest double. -/
def toFloat? : Json → Option Float
  | .int n => some (Float.ofInt n)
  | .double x => some x
  | _ => none

/-- Whether the value is `null`. -/
def isNull : Json → Bool
  | .null => true
  | _ => false

/-- Whether the value is a number. -/
def isNumber : Json → Bool
  | .int _ | .double _ => true
  | _ => false

/-- Whether the value is an object. -/
def isObject : Json → Bool
  | .obj _ => true
  | _ => false

/-- A double as a JSON value; JSON has no infinities and no NaN, and `null` stands for them. -/
def ofFloat (x : Float) : Json := if x.isFinite then .double x else .null

/-- An array of strings. -/
def ofStrings (texts : List String) : Json := .arr (texts.map .str)

/-- An object from entries in any order. -/
def ofEntries (entries : List (String × Json)) : Json := .obj (Dict.ofList entries)

end Json

end ObjectStore
