import ObjectStore.Decimal.Reading
import ObjectStore.Schema.Basic
import ObjectStore.Text.Letter
import ObjectStore.Time.Timestamp
import ObjectStore.Value.Geo

/-!
# Values from columns

What a column holds, turned back into a wire value. A stored text that has not the form of its type
is passed on as it is, except for dates, which must be timestamps. Nothing is what a null holds.
-/

namespace ObjectStore

namespace GeoPoint

/-- Reads the two coordinates of a stored point, longitude first. -/
def ofPair? (readCoordinate? : String → Option Float) (text : String) : Option GeoPoint := do
  let (x, y) ← Text.cut? ',' text
  let longitude ← readCoordinate? x
  let latitude ← readCoordinate? y
  pure ⟨latitude, longitude⟩

/-- Reads a stored point. -/
def ofStored? (text : String) : Option GeoPoint := do
  let inner ← Text.dropEnd? (← Text.dropStart? (Text.trim text) "(") ")"
  ofPair? (fun s => Decimal.readDouble? (Text.trim s)) inner

end GeoPoint

namespace Polygon

/-- Reads a stored polygon. Stored rings are closed, so the vertex that closes one is dropped. -/
def ofStored? (text : String) : Option Polygon := do
  let compact := String.ofList (text.toList.filter fun c => !Text.isBlank c)
  let inner ← Text.dropEnd? (← Text.dropStart? compact "((") "))"
  let ring ← (Text.splitAt "),(" inner).mapM (GeoPoint.ofPair? Decimal.readDouble?)
  pure (if 3 < ring.length && isClosed ring then ring.dropLast else ring)

end Polygon

/-- The stub that stands for a relation in an object. -/
def relationStub (target : String) : Json := .tagged "Relation" [("className", .str target)]

/-- Whether a field is one of the two timestamps, which travel as bare text. -/
def isTimestampField (name : String) : Bool := name = createdAtField || name = updatedAtField

namespace FieldType

/-- What the text in a column of a type stands for. -/
def decodeText (fieldName : String) (text : String) : FieldType → Result Json
  | .date => do
    let iso ← Timestamp.canonical text
    pure (if isTimestampField fieldName then .str iso else .ofDate iso)
  | .pointer target => .ok (Pointer.mk target text).toJson
  | .file => .ok (.ofFileName text)
  | .geoPoint => .ok (((GeoPoint.ofStored? text).map GeoPoint.toJson).getD (.str text))
  | .polygon => .ok (((Polygon.ofStored? text).map Polygon.toJson).getD (.str text))
  | _ => .ok (.str text)

/-- The wire value of what a field's column holds. -/
def decode (fieldName : String) (type : FieldType) : Json → Result (Option Json)
  | .null => .ok none
  | .str text =>
    if type.isRelation then .ok none else (type.decodeText fieldName text).map some
  | stored => .ok (if type.isRelation then none else some stored)

end FieldType

namespace Schema

/-- The wire value of what a column holds; columns without a field pass as they are. -/
def decodeCell (s : Schema) (name : String) (stored : Json) : Result (Option Json) :=
  match s.field? name with
  | some type => type.decode name stored
  | none => .ok (if stored.isNull then none else some stored)

/-- The columns of a row that hold something, as wire values. -/
def decodeCells (s : Schema) : Object → Result (List (String × Json))
  | [] => .ok []
  | (name, stored) :: rest => do
    let value ← s.decodeCell name stored
    let others ← s.decodeCells rest
    pure (match value with
      | some value => (name, value) :: others
      | none => others)

/-- The stubs of the relation fields. -/
def relationStubs (s : Schema) : List (String × Json) :=
  s.fields.filterMap fun (name, type) =>
    if type.isRelation then type.targetClass?.map fun target => (name, relationStub target)
    else none

/-- The object that a row holds. -/
def decodeRow (s : Schema) (row : Object) : Result Object := do
  let cells ← s.decodeCells row
  pure (Dict.merge cells s.relationStubs)

end Schema

end ObjectStore
