import ObjectStore.Error.Basic
import ObjectStore.Value.Geo

/-!
# Constraints

What a query asks of one field: a bare value, or operators. The operators of a field are read in a
fixed order, whatever order the client wrote them in, and their payloads are checked here, so that
whoever goes on works with well-formed operators only.
-/

namespace ObjectStore

/-- An order that a bound is compared by. -/
inductive Comparator where
  | greater
  | less
  | greaterOrEqual
  | lessOrEqual
  deriving Repr, DecidableEq

namespace Comparator

/-- The operator of a query. -/
def key : Comparator → String
  | .greater => "$gt"
  | .less => "$lt"
  | .greaterOrEqual => "$gte"
  | .lessOrEqual => "$lte"

/-- The sign of the engine. -/
def sign : Comparator → String
  | .greater => ">"
  | .less => "<"
  | .greaterOrEqual => ">="
  | .lessOrEqual => "<="

/-- All comparators in the order in which they are read. -/
def all : List Comparator := [.greater, .less, .greaterOrEqual, .lessOrEqual]

end Comparator

/-- A full-text search. -/
structure TextSearch where
  term : String
  language : String
  deriving Repr, DecidableEq

/-- A tagged value that a field is to equal. -/
inductive TaggedValue where
  | pointer (target : Pointer) (written : Json)
  | date (iso : String)
  | geoPoint (point : GeoPoint)
  | polygon (ring : Polygon)
  | file (name : String)

/-- One thing that a query asks of a field. -/
inductive Operator where
  | notEqual (value : Json)
  | equal (value : Json)
  | isIn (values : List Json)
  | notIn (values : List Json)
  | containsAll (values : List Json)
  | isPresent (expected : Bool)
  | containedBy (values : Json)
  | matchesText (search : TextSearch)
  | near (point : GeoPoint) (maxDistance : Option Float)
  | inBox (bottomLeft topRight : GeoPoint)
  | inSphere (point : GeoPoint) (distance : Float)
  | inPolygon (points : Polygon)
  | intersects (point : GeoPoint)
  | matchesPattern (pattern options : String)
  | tagged (value : TaggedValue)
  | compare (comparator : Comparator) (bound : Json)

/-- What a query asks of a field. -/
inductive Constraint where
  | null
  | text (value : String)
  | number (value : Float)
  | flag (value : Bool)
  | operators (list : List Operator)

/-- A refusal of the payload of an operator. -/
def OperandFault.error (fault : OperandFault) : Error := .invalidJson (.operand fault)

/-- The value that is there, or else a refusal. -/
def OperandFault.demand {α : Type} (fault : OperandFault) : Option α → Result α
  | some value => .ok value
  | none => .error fault.error

namespace Operator

/-- An operator whose payload may be anything. -/
def readAny (key : String) (make : Json → Operator) (fields : Object) : Result (List Operator) :=
  .ok ((fields.get? key).toList.map make)

/-- An operator whose payload is a list. -/
def readList (key : String) (make : List Json → Operator) (fields : Object) :
    Result (List Operator) :=
  match fields.get? key with
  | none => .ok []
  | some payload => do pure [make (← (OperandFault.notList key).demand payload.arr?)]

/-- The flag that `$exists` carries. -/
def presence (payload : Json) : Result Bool :=
  match payload.bool? with
  | some flag => .ok flag
  | none =>
    if (payload.get? "$relativeTime").isSome then .error OperandFault.relativeTimeOperator.error
    else .error OperandFault.exists.error

/-- Whether a field is there. -/
def readPresence (fields : Object) : Result (List Operator) :=
  match fields.get? "$exists" with
  | none => .ok []
  | some payload => do pure [.isPresent (← presence payload)]

/-- A list that holds all elements of the field. -/
def readContainedBy (fields : Object) : Result (List Operator) :=
  match fields.get? "$containedBy" with
  | none => .ok []
  | some payload =>
    if payload.arr?.isSome then .ok [.containedBy payload]
    else .error OperandFault.containedBy.error

/-! ## Full-text search -/

/-- The language of a search; English if none is named. -/
def searchLanguage (search : Json) : Result String :=
  match search.get? "$language" with
  | none => .ok "english"
  | some language => OperandFault.textLanguage.demand language.str?

/-- Refuses a flag of a search that has not the one value that is supported. -/
def requireFlag (search : Json) (key : String) (supported : Bool)
    (unsupported wrongType : OperandFault) : Result Unit :=
  match search.get? key with
  | none => .ok ()
  | some (.bool flag) => if flag = supported then .ok () else .error unsupported.error
  | some _ => .error wrongType.error

/-- The search that `$text` carries. -/
def textSearch (payload : Json) : Result TextSearch := do
  let search ← OperandFault.textSearch.demand ((payload.get? "$search").filter Json.isObject)
  let term ← OperandFault.textTerm.demand
    (((search.get? "$term").bind Json.str?).filter fun term => !term.isEmpty)
  let language ← searchLanguage search
  requireFlag search "$caseSensitive" false .textCaseUnsupported .textCaseType
  requireFlag search "$diacriticSensitive" true .textDiacriticUnsupported .textDiacriticType
  pure ⟨term, language⟩

/-- A full-text search of the field. -/
def readText (fields : Object) : Result (List Operator) :=
  match fields.get? "$text" with
  | none => .ok []
  | some payload => do pure [.matchesText (← textSearch payload)]

/-! ## Places -/

/-- A tagged point on the globe. -/
def pointOnGlobe (fault : OperandFault) (payload : Json) : Result GeoPoint := do
  let point ← fault.demand (GeoPoint.ofJson? payload)
  point.validate
  pure point

/-- The distance in radians that `$maxDistance` sets, if any. -/
def maxDistance (fields : Object) : Result (Option Float) :=
  match fields.get? "$maxDistance" with
  | none | some .null => .ok none
  | some distance => do pure (some (← OperandFault.maxDistance.demand distance.toFloat?))

/-- A place to be near to. -/
def readNear (fields : Object) : Result (List Operator) :=
  match fields.get? "$nearSphere" with
  | none => .ok []
  | some payload => do
    let point ← pointOnGlobe .nearSphere payload
    pure [.near point (← maxDistance fields)]

/-- The two corners of a box. -/
def corners (payload : Json) : Result Operator :=
  match payload with
  | .arr [bottomLeft, topRight] => do
    let bottomLeft ← OperandFault.box.demand (GeoPoint.ofJson? bottomLeft)
    pure (.inBox bottomLeft (← OperandFault.box.demand (GeoPoint.ofJson? topRight)))
  | _ => .error OperandFault.box.error

/-- A box to lie in. -/
def readBox (fields : Object) : Result (List Operator) :=
  match (fields.get? "$within").bind (·.get? "$box") with
  | none => .ok []
  | some payload => do pure [← corners payload]

/-- The centre and the radius of a sphere. -/
def sphere (payload : Json) : Result Operator :=
  match payload with
  | .arr (centre :: radius :: _) => do
    let point ← OperandFault.spherePoint.demand (GeoPoint.ofJsonOrPair? centre)
    point.validate
    let distance ← OperandFault.sphereDistance.demand
      (radius.toFloat?.filter fun distance => 0.0 ≤ distance)
    pure (.inSphere point distance)
  | _ => .error OperandFault.sphereShape.error

/-- The points of a polygon: a tagged polygon, or a list of points or pairs. -/
def polygonPoints (payload : Json) : Result Polygon :=
  if payload.typeTag? == some "Polygon" then
    OperandFault.polygonCoordinates.demand
      ((Polygon.ofJson? payload).filter fun ring => 3 ≤ ring.length)
  else match payload.arr? with
    | some items =>
      if items.length < 3 then .error OperandFault.polygonPoints.error
      else OperandFault.polygonPoint.demand (items.mapM GeoPoint.ofJsonOrPair?)
    | none => .error OperandFault.polygonShape.error

/-- The polygon to lie in, all of it on the globe. -/
def polygon (payload : Json) : Result Operator := do
  let points ← polygonPoints payload
  points.forM GeoPoint.validate
  pure (.inPolygon points)

/-- A sphere or a polygon to lie in. -/
def readArea (key : String) (read : Json → Result Operator) (fields : Object) :
    Result (List Operator) :=
  match (fields.get? "$geoWithin").bind (·.get? key) with
  | none => .ok []
  | some payload => do pure [← read payload]

/-- A point that the field's polygon holds. -/
def readIntersects (fields : Object) : Result (List Operator) :=
  match (fields.get? "$geoIntersects").bind (·.get? "$point") with
  | none => .ok []
  | some payload => do pure [.intersects (← pointOnGlobe .intersectsPoint payload)]

/-! ## Patterns, tagged values and bounds -/

/-- The options of a pattern. -/
def patternOptions (fields : Object) : Result String :=
  match fields.get? "$options" with
  | none | some .null => .ok ""
  | some options => OperandFault.regexOptions.demand options.str?

/-- A pattern to match. -/
def readPattern (fields : Object) : Result (List Operator) :=
  match fields.get? "$regex" with
  | none => .ok []
  | some payload => do
    let pattern ← OperandFault.regexPattern.demand payload.str?
    pure [.matchesPattern pattern (← patternOptions fields)]

/-- The tagged value that a constraint is as a whole; tags that no field can equal ask nothing. -/
def taggedValue? (value : Json) : String → Result (Option TaggedValue)
  | "Pointer" => do
    let target ← (OperandFault.tagged "Pointer" value).demand (Pointer.ofJson? value)
    pure (some (.pointer target value))
  | "Date" => do pure (some (.date (← (OperandFault.tagged "Date" value).demand value.date?)))
  | "GeoPoint" => do
    pure (some (.geoPoint (← pointOnGlobe (OperandFault.tagged "GeoPoint" value) value)))
  | "Polygon" => do
    let ring ← (OperandFault.tagged "Polygon" value).demand (Polygon.ofJson? value)
    pure (some (.polygon ring))
  | "File" => do pure (some (.file (← (OperandFault.tagged "File" value).demand value.fileName?)))
  | _ => .ok none

/-- A tagged value to equal. -/
def readTagged (fields : Object) : Result (List Operator) :=
  match (Json.obj fields).typeTag? with
  | none => .ok []
  | some tag => do pure ((← taggedValue? (.obj fields) tag).toList.map .tagged)

/-- Whether a bound asks anything: null, false and the empty text do not. -/
def isBound : Json → Bool
  | .null | .bool false => false
  | .str s => !s.isEmpty
  | _ => true

/-- A bound to compare with. -/
def readBound (comparator : Comparator) (fields : Object) : Result (List Operator) :=
  .ok (((fields.get? comparator.key).filter isBound).toList.map (.compare comparator))

/-- The readers of all operators, in the order in which they run. -/
def readers : List (Object → Result (List Operator)) :=
  [ readAny "$ne" .notEqual, readAny "$eq" .equal, readList "$in" .isIn, readList "$nin" .notIn
  , readList "$all" .containsAll, readPresence, readContainedBy, readText, readNear, readBox
  , readArea "$centerSphere" sphere, readArea "$polygon" polygon, readIntersects, readPattern
  , readTagged ] ++ Comparator.all.map readBound

/-- The operators that an object holds, in the order of their readers. -/
def ofObject (fields : Object) : Result (List Operator) := do
  let found ← readers.mapM fun read => read fields
  pure found.flatten

end Operator

namespace Constraint

/-- Reads the constraint of a field. A list asks nothing that can be answered. -/
def ofJson : Json → Result Constraint
  | .null => .ok .null
  | .str s => .ok (.text s)
  | .int n => .ok (.number (Float.ofInt n))
  | .double x => .ok (.number x)
  | .bool b => .ok (.flag b)
  | .arr _ => .ok (.operators [])
  | .obj fields => do pure (.operators (← Operator.ofObject fields))

end Constraint

end ObjectStore
