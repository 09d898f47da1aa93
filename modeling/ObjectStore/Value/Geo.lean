import ObjectStore.Value.Tag
import ObjectStore.Error.Basic

/-!
# Points and polygons

A point is a latitude and a longitude in degrees. Tagged points name both; a bare pair puts the
longitude first, and a vertex of a tagged polygon puts the latitude first.
-/

namespace ObjectStore

/-- A point on the globe. -/
structure GeoPoint where
  latitude : Float
  longitude : Float
  deriving DecidableEq

namespace GeoPoint

/-- Reads a tagged point, wherever it lies. -/
def ofJson? (value : Json) : Option GeoPoint := do
  let value ← value.ofTag? "GeoPoint"
  let latitude ← (← value.get? "latitude").toFloat?
  let longitude ← (← value.get? "longitude").toFloat?
  pure ⟨latitude, longitude⟩

/-- Reads a tagged point or a bare pair of longitude and latitude. -/
def ofJsonOrPair? (value : Json) : Option GeoPoint :=
  match ofJson? value, value with
  | some point, _ => some point
  | none, .arr [longitude, latitude] => do
    let latitude ← latitude.toFloat?
    let longitude ← longitude.toFloat?
    pure ⟨latitude, longitude⟩
  | none, _ => none

/-- The tagged form of a point. -/
def toJson (p : GeoPoint) : Json :=
  .tagged "GeoPoint" [("latitude", .ofFloat p.latitude), ("longitude", .ofFloat p.longitude)]

/-- Whether a coordinate lies between two bounds, both included. -/
def within (low high x : Float) : Bool := low ≤ x && x ≤ high

/-- Refuses points that are not on the globe. -/
def validate (p : GeoPoint) : Result Unit :=
  if !p.latitude.isFinite || !p.longitude.isFinite then .error (.invalidJson .notCoordinates)
  else if !within (-90.0) 90.0 p.latitude then .error (.invalidJson (.latitude p.latitude))
  else if !within (-180.0) 180.0 p.longitude then .error (.invalidJson (.longitude p.longitude))
  else .ok ()

/-- The literal of a point, longitude first. -/
def literal (p : GeoPoint) : String :=
  "(" ++ Decimal.Layout.plain.write p.longitude ++ ", "
    ++ Decimal.Layout.plain.write p.latitude ++ ")"

/-- Whether two points have equal coordinates as numbers. -/
def sameAs (p q : GeoPoint) : Bool := p.latitude == q.latitude && p.longitude == q.longitude

end GeoPoint

/-- A polygon: its vertices in order. -/
abbrev Polygon := List GeoPoint

namespace Polygon

/-- Reads a pair of latitude and longitude. -/
def vertex? : Json → Option GeoPoint
  | .arr [latitude, longitude] => do
    let latitude ← latitude.toFloat?
    let longitude ← longitude.toFloat?
    pure ⟨latitude, longitude⟩
  | _ => none

/-- Reads pairs of latitude and longitude. -/
def vertices? (items : List Json) : Option Polygon := items.mapM vertex?

/-- Reads a tagged polygon. -/
def ofJson? (value : Json) : Option Polygon := do
  let value ← value.ofTag? "Polygon"
  vertices? (← (← value.get? "coordinates").arr?)

/-- The coordinates of a polygon as pairs of latitude and longitude. -/
def coordinates (p : Polygon) : Json :=
  .arr (p.map fun v => .arr [.ofFloat v.latitude, .ofFloat v.longitude])

/-- The tagged form of a polygon. -/
def toJson (p : Polygon) : Json := .tagged "Polygon" [("coordinates", coordinates p)]

/-- Whether a ring ends where it starts. -/
def isClosed (p : Polygon) : Bool :=
  match p.head?, p.getLast? with
  | some first, some last => first.sameAs last
  | none, none => true
  | _, _ => false

/-- The ring with its first vertex repeated at the end, unless it is closed already. -/
def close (p : Polygon) : Polygon := if p.isClosed then p else p ++ p.take 1

/-- The vertices that differ from all vertices before them. -/
def distinct (p : Polygon) : Polygon :=
  p.foldl (fun seen v => if seen.any v.sameAs then seen else seen ++ [v]) []

/-- The literal of a ring of points. -/
def ringLiteral (p : Polygon) : String :=
  "(" ++ Text.join ", " (p.map GeoPoint.literal) ++ ")"

/-- The literal of a polygon: a closed ring with at least three different vertices, all of them on
the globe. -/
def literal (p : Polygon) : Result String :=
  if p.length < 3 then .error (.invalidJson .polygonLength)
  else
    let ring := p.close
    if ring.distinct.length < 3 then .error (.invalidJson .polygonVertices)
    else do
      ring.forM GeoPoint.validate
      pure ring.ringLiteral

end Polygon

end ObjectStore
