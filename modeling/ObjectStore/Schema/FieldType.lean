import ObjectStore.Value.Tag

/-!
# Field types

The type of a field of a class. The document of a type is an object whose `type` names it, with the
class that a pointer or relation leads to, and with the type of the elements of an array where that
is known. Members that a type does not use are ignored.

A document may also list its parts in order, without their names.
-/

namespace ObjectStore

/-- The type of a field. -/
inductive FieldType where
  | string
  | number
  | boolean
  | date
  | object
  | bytes
  | file
  | geoPoint
  | polygon
  | array
  | arrayOf (contents : FieldType)
  | pointer (targetClass : String)
  | relation (targetClass : String)
  deriving Repr, DecidableEq

namespace FieldType

/-- The name of a type. -/
def name : FieldType → String
  | .string => "String"
  | .number => "Number"
  | .boolean => "Boolean"
  | .date => "Date"
  | .object => "Object"
  | .bytes => "Bytes"
  | .file => "File"
  | .geoPoint => "GeoPoint"
  | .polygon => "Polygon"
  | .array | .arrayOf _ => "Array"
  | .pointer _ => "Pointer"
  | .relation _ => "Relation"

/-- Whether the type is one of arrays. -/
def isArray : FieldType → Bool
  | .array | .arrayOf _ => true
  | _ => false

/-- Whether the type is one of relations. -/
def isRelation : FieldType → Bool
  | .relation _ => true
  | _ => false

/-- Whether the type is that of arrays of strings. -/
def isStringArray : FieldType → Bool
  | .arrayOf .string => true
  | _ => false

/-- The class that a pointer or relation leads to. -/
def targetClass? : FieldType → Option String
  | .pointer target | .relation target => some target
  | _ => none

/-- The type as one word, with the class it leads to. -/
def display (type : FieldType) : String :=
  match type.targetClass? with
  | some target => type.name ++ "<" ++ target ++ ">"
  | none => type.name

/-! ## Documents -/

/-- The types without parts, by name. -/
def plain? : String → Option FieldType
  | "String" => some .string
  | "Number" => some .number
  | "Boolean" => some .boolean
  | "Date" => some .date
  | "Object" => some .object
  | "Bytes" => some .bytes
  | "File" => some .file
  | "GeoPoint" => some .geoPoint
  | "Polygon" => some .polygon
  | _ => none

/-- The names of types in the order in which a number may stand for one. -/
def names : List String :=
  ["String", "Number", "Boolean", "Date", "Object", "Bytes", "File", "GeoPoint", "Polygon",
    "Array", "Pointer", "Relation"]

/-- The type that a document names. Inside an array a number may name it by its place in `names`. -/
def typeName? (inArray : Bool) : Json → Option String
  | .str name => some name
  | .int n => if inArray ∧ 0 ≤ n then names[n.toNat]? else none
  | _ => none

/-- The text of a member that must be there. -/
def requiredText? (fields : Object) (key : String) : Option String :=
  (Dict.get? fields key).bind Json.str?

mutual

/-- Reads the document of a type. -/
def ofJson? (inArray : Bool) : Json → Option FieldType
  | .obj fields =>
    match (Dict.get? fields "type").bind (typeName? inArray) with
    | some "Array" => (contents? fields).map fun
      | some contents => .arrayOf contents
      | none => .array
    | some "Pointer" => (requiredText? fields "targetClass").map .pointer
    | some "Relation" => (requiredText? fields "targetClass").map .relation
    | some name => plain? name
    | none => none
  | .arr [tag] =>
    match typeName? inArray tag with
    | some "Array" => some .array
    | some name => plain? name
    | none => none
  | .arr [tag, part] =>
    match typeName? inArray tag with
    | some "Array" => if part.isNull then some .array else (ofJson? true part).map .arrayOf
    | some "Pointer" => part.str?.map .pointer
    | some "Relation" => part.str?.map .relation
    | _ => none
  | _ => none

/-- Reads the type of the elements of an array, which may be left out. -/
def contents? : List (String × Json) → Option (Option FieldType)
  | [] => some none
  | (key, value) :: rest =>
    if key = "contents" then
      if value.isNull then some none else (ofJson? true value).map some
    else contents? rest

end

/-- Writes the document of a type. -/
def toJson : FieldType → Json
  | .arrayOf contents => .ofEntries [("type", .str "Array"), ("contents", toJson contents)]
  | .pointer target => .ofEntries [("type", .str "Pointer"), ("targetClass", .str target)]
  | .relation target => .ofEntries [("type", .str "Relation"), ("targetClass", .str target)]
  | type => .ofEntries [("type", .str type.name)]

end FieldType

end ObjectStore
