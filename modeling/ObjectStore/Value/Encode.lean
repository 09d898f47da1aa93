import ObjectStore.Error.Basic
import ObjectStore.Json.Text
import ObjectStore.Sql.Basic
import ObjectStore.Value.Column
import ObjectStore.Value.Geo
import ObjectStore.Value.Tag

/-!
# Values as parameters

How a wire value is sent to a column, and how it is sent to be compared with one. Pointers, dates
and files go by their id, text and name; other composite values go as JSON text.
-/

namespace ObjectStore.Bytes

/-!
## Bytes

Bytes travel as base64 with padding: groups of four characters of the alphabet, the last of which
may end in one or two `=`. The bits that padding leaves over must be zero.
-/

/-- The six bits that a character stands for. -/
def sextet? (c : Char) : Option Nat :=
  if 'A' ≤ c ∧ c ≤ 'Z' then some (c.toNat - 'A'.toNat)
  else if 'a' ≤ c ∧ c ≤ 'z' then some (c.toNat - 'a'.toNat + 26)
  else if '0' ≤ c ∧ c ≤ '9' then some (c.toNat - '0'.toNat + 52)
  else if c = '+' then some 62
  else if c = '/' then some 63
  else none

/-- Whether a text is base64. -/
def isEncoded : List Char → Bool
  | [] => true
  | [a, b, '=', '='] => (sextet? a).isSome && (sextet? b).any fun n => n % 16 = 0
  | [a, b, c, '='] =>
    (sextet? a).isSome && (sextet? b).isSome && (sextet? c).any fun n => n % 4 = 0
  | a :: b :: c :: d :: rest =>
    (sextet? a).isSome && (sextet? b).isSome && (sextet? c).isSome && (sextet? d).isSome
      && isEncoded rest
  | _ => false

/-- Refuses values whose payload is missing or no base64. -/
def validate (value : Json) : Result Unit :=
  match (value.get? "base64").bind Json.str? with
  | none => .error (.invalidJson .bytesMissing)
  | some payload =>
    if isEncoded payload.toList then .ok () else .error (.invalidJson .bytesEncoding)

end ObjectStore.Bytes

/-! ## Parameters -/

namespace ObjectStore

namespace Json

/-- What a tagged scalar stands for: the id of a pointer, the text of a date, the name of a file. -/
def scalarText? (value : Json) : Option String :=
  match Pointer.ofJson? value with
  | some pointer => some pointer.objectId
  | none =>
    match value.date? with
    | some iso => some iso
    | none => value.fileName?

/-- The parameter of a value in a plain column. -/
def param : Json → Param
  | .str s => .text (some s)
  | .bool b => .bool b
  | .int n => .double (Float.ofInt n)
  | .double x => .double x
  | .null => .text none
  | value => .text (some (value.scalarText?.getD value.compact))

/-- The text of a value, as a path that ends in text yields it. -/
def textForm : Json → String
  | .str s => s
  | value => value.scalarText?.getD value.compact

end Json

namespace GeoPoint

/-- A point as an expression, longitude first. -/
def sql (p : GeoPoint) : Sql :=
  Sql.text "POINT(" ++ Sql.bind (.double p.longitude) ++ Sql.text ", "
    ++ Sql.bind (.double p.latitude) ++ Sql.text ")"

end GeoPoint

namespace FieldType

/-- A value to compare with a column of a type, or with one of unknown type. -/
def comparand (type : Option FieldType) (value : Json) : Sql :=
  if value.date?.isSome || type = some .date then
    Sql.bind value.param ++ Sql.text "::timestamptz"
  else if type.bind column? = some .json then Sql.bindJson value.compact
  else Sql.bind value.param

/-- The array literal of some values. -/
def textArray (items : List Json) : Sql :=
  Sql.bindText (Sql.arrayLiteral (items.map Json.textForm)) ++ Sql.text "::text[]"

/-- A date to store: a tagged date or its bare text. -/
def encodeDate (value : Json) : Result Sql :=
  match value.date?.or value.str? with
  | some iso => .ok (Sql.bindText iso ++ Sql.text "::timestamptz")
  | none => .error (.invalidJson (.dateValue value))

/-- A list of texts to store. -/
def encodeTexts (value : Json) : Result Sql :=
  match value.arr? with
  | some items => .ok (textArray items)
  | none => .error (.invalidJson (.notArray value))

/-- A point to store. -/
def encodePoint (value : Json) : Result Sql :=
  match GeoPoint.ofJson? value with
  | some point => do
    point.validate
    pure point.sql
  | none => .error (.invalidJson (.geoPoint value))

/-- A polygon to store. -/
def encodePolygon (value : Json) : Result Sql :=
  match Polygon.ofJson? value with
  | some ring => do pure (Sql.bindText (← ring.literal) ++ Sql.text "::polygon")
  | none => .error (.invalidJson (.polygon value))

/-- JSON to store; bytes are checked first. -/
def encodeDocument (type : FieldType) (value : Json) : Result Sql := do
  if type = .bytes then Bytes.validate value
  pure (Sql.bindJson value.compact)

/-- A value to store in a column of a type. -/
def encodeColumn (type : FieldType) (value : Json) : ColumnType → Result Sql
  | .text | .double | .boolean => .ok (Sql.bind value.param)
  | .timestamp => encodeDate value
  | .json => encodeDocument type value
  | .textArray => encodeTexts value
  | .point => encodePoint value
  | .polygon => encodePolygon value

/-- A value to store in a field; relations store nothing. -/
def encode (type : FieldType) (value : Json) : Result (Option Sql) :=
  if value.isNull then .ok (some (Sql.text "NULL"))
  else match type.column? with
    | none => .ok none
    | some column => (type.encodeColumn value column).map some

end FieldType

end ObjectStore
