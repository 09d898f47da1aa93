import ObjectStore.Json.Basic

/-!
# Tagged values

An object whose `__type` is a string is a value of a richer type than JSON has: a pointer to an
object, a date, a file, a point, a polygon or bytes. An object whose `__op` is a string is an update
operator. A reader of one tag gives nothing for a value with another tag or with a part missing.
-/

namespace ObjectStore

/-- The member that names the type of a tagged value. -/
def typeKey : String := "__type"

/-- The member that names an update operator. -/
def operatorKey : String := "__op"

namespace Json

/-- The type that a tagged value names. -/
def typeTag? (value : Json) : Option String := (value.get? typeKey).bind str?

/-- The operator that an update operator names. -/
def opTag? (value : Json) : Option String := (value.get? operatorKey).bind str?

/-- Whether a value has a type tag. -/
def isTagged (value : Json) : Bool := value.typeTag?.isSome

/-- The members of a value whose type tag is `tag`. -/
def ofTag? (tag : String) (value : Json) : Option Json :=
  if value.typeTag? == some tag then some value else none

/-- The text of the member `key` of a value whose type tag is `tag`. -/
def taggedText? (tag key : String) (value : Json) : Option String := do
  let value ← value.ofTag? tag
  (← value.get? key).str?

/-- A value with a type tag. -/
def tagged (tag : String) (parts : List (String × Json)) : Json :=
  ofEntries ((typeKey, .str tag) :: parts)

/-- The text of a tagged date. -/
def date? (value : Json) : Option String := value.taggedText? "Date" "iso"

/-- A tagged date. -/
def ofDate (iso : String) : Json := tagged "Date" [("iso", .str iso)]

/-- The name of a tagged file. -/
def fileName? (value : Json) : Option String := value.taggedText? "File" "name"

/-- A tagged file. -/
def ofFileName (name : String) : Json := tagged "File" [("name", .str name)]

end Json

/-- A reference to an object of a class. -/
structure Pointer where
  className : String
  objectId : String
  deriving Repr, DecidableEq

namespace Pointer

/-- Reads a tagged pointer. -/
def ofJson? (value : Json) : Option Pointer := do
  let className ← value.taggedText? "Pointer" "className"
  let objectId ← value.taggedText? "Pointer" "objectId"
  pure ⟨className, objectId⟩

/-- The tagged form of a pointer. -/
def toJson (p : Pointer) : Json :=
  .tagged "Pointer" [("className", .str p.className), ("objectId", .str p.objectId)]

end Pointer

end ObjectStore
