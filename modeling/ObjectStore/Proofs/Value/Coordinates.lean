import ObjectStore.Proofs.Value.Rings

/-!
# Coordinates

A point comes in three forms: tagged, with its coordinates by name (`IsTagged`), as a pair with the
longitude first (`IsPair`), and as a vertex of a tagged polygon, with the latitude first
(`IsVertex`). The engine takes all of them with the longitude first, some as two bound numbers and
some in the text of a shape.

`Sql.numbers` are the numbers that a fragment hands to the engine in either way. Those of a stored
point are its coordinates (`FieldType.numbers_encode_point`), and those of a stored polygon are the
coordinates of its closed ring (`FieldType.numbers_encode_ring`).
-/

namespace ObjectStore

open Decimal Result

/-! ## Numbers in texts -/

namespace Text

/-- The doubles that are written in a text, in reading order. -/
def numbers (s : List Char) : List Float :=
  (s.splitOnP fun c => !isDecimalChar c).filterMap fun run => readDouble? (String.ofList run)

variable {c : Char}

/-- No number is written in the empty text. -/
theorem numbers_nil : numbers [] = [] := rfl

/-- A run of characters that decimals are written with ends at the first other character, and is one
number at most. -/
theorem numbers_append_cons {run : List Char} (hrun : ∀ c ∈ run, isDecimalChar c = true)
    (hc : isDecimalChar c = false) (rest : List Char) :
    numbers (run ++ c :: rest) = (readDouble? (String.ofList run)).toList ++ numbers rest := by
  have hno : ∀ c ∈ run, (!isDecimalChar c) = false := fun c hmem => by rw [hrun c hmem]; rfl
  have hyes : (!isDecimalChar c) = true := by rw [hc]; rfl
  rw [numbers, List.splitOnP_append_cons_of_forall_mem hno c hyes]
  cases h : readDouble? (String.ofList run) <;> simp [numbers, h]

/-- What no decimal is written with is passed over. -/
theorem numbers_cons (hc : isDecimalChar c = false) (rest : List Char) :
    numbers (c :: rest) = numbers rest :=
  numbers_append_cons (List.forall_mem_nil _) hc rest

/-- A spelled double is the first number, if what comes behind it is not part of one. -/
theorem numbers_append_of_spells {text : String} {x : Float} (h : Spells text x)
    (hc : isDecimalChar c = false) (rest : List Char) :
    numbers (text.toList ++ c :: rest) = x :: numbers rest := by
  rw [numbers_append_cons (isDecimalChar_of_spells h) hc, String.ofList_toList,
    readDouble?_of_spells h]
  rfl

end Text

/-! ## Points in texts -/

namespace GeoPoint

/-- The coordinates of a point as the engine takes them, longitude first. -/
def axes (p : GeoPoint) : List Float := [p.longitude, p.latitude]

/-- The coordinates of a point are numbers. -/
structure IsFinite (p : GeoPoint) : Prop where
  latitude : p.latitude.isFinite = true
  longitude : p.longitude.isFinite = true

/-- A point on the globe has coordinates that are numbers. -/
theorem OnGlobe.isFinite {p : GeoPoint} (h : p.OnGlobe) : p.IsFinite :=
  ⟨h.isFinite_latitude, h.isFinite_longitude⟩

/-- The literal of a point shows its coordinates, whatever comes behind it. -/
theorem numbers_literal_append {p : GeoPoint} (h : p.IsFinite) (rest : List Char) :
    Text.numbers (p.literal.toList ++ rest) = p.axes ++ Text.numbers rest := by
  have hlongitude := spells_write .plain h.longitude
  have hlatitude := spells_write .plain h.latitude
  have htext : p.literal.toList ++ rest = '(' :: ((Layout.plain.write p.longitude).toList ++
      ',' :: ' ' :: ((Layout.plain.write p.latitude).toList ++ ')' :: rest)) := by
    simp only [literal, String.toList_append, List.append_assoc]
    rfl
  rw [htext, Text.numbers_cons rfl, Text.numbers_append_of_spells hlongitude rfl,
    Text.numbers_cons rfl, Text.numbers_append_of_spells hlatitude rfl]
  rfl

/-- The literal of a point shows its coordinates. -/
theorem numbers_literal {p : GeoPoint} (h : p.IsFinite) :
    Text.numbers p.literal.toList = p.axes := by
  have hrest := numbers_literal_append h []
  rwa [List.append_nil, Text.numbers_nil, List.append_nil] at hrest

end GeoPoint

namespace Polygon

variable {ring : Polygon}

/-- Literals with commas between them show the coordinates of one point after another. -/
theorem numbers_join (h : ∀ p ∈ ring, p.IsFinite) (rest : List Char) :
    Text.numbers ((Text.join ", " (ring.map GeoPoint.literal)).toList ++ rest)
      = ring.flatMap GeoPoint.axes ++ Text.numbers rest := by
  induction ring with
  | nil => rfl
  | cons p ring ih =>
    obtain ⟨hp, hring⟩ := List.forall_mem_cons.mp h
    cases ring with
    -- the last point has no comma behind it
    | nil => simpa [Text.join] using GeoPoint.numbers_literal_append hp rest
    | cons q ring =>
      have hjoin : (Text.join ", " ((p :: q :: ring).map GeoPoint.literal)).toList ++ rest
          = p.literal.toList ++ (',' :: ' ' ::
            ((Text.join ", " ((q :: ring).map GeoPoint.literal)).toList ++ rest)) := by
        simp only [List.map_cons, Text.join, String.toList_append, List.append_assoc]
        rfl
      rw [hjoin, GeoPoint.numbers_literal_append hp, Text.numbers_cons rfl, Text.numbers_cons rfl,
        ih hring, ← List.append_assoc, ← List.flatMap_cons]

/-- The literal of a ring shows the coordinates of its vertices. -/
theorem numbers_ringLiteral (h : ∀ p ∈ ring, p.IsFinite) :
    Text.numbers ring.ringLiteral.toList = ring.flatMap GeoPoint.axes := by
  have htext : ring.ringLiteral.toList
      = '(' :: ((Text.join ", " (ring.map GeoPoint.literal)).toList ++ [')']) := by
    simp only [ringLiteral, String.toList_append]
    rfl
  rw [htext, Text.numbers_cons rfl, numbers_join h, Text.numbers_cons rfl, Text.numbers_nil,
    List.append_nil]

/-- The literal of a polygon shows the coordinates of its closed ring. -/
theorem numbers_literal {text : String} (h : ring.literal = .ok text) :
    Text.numbers text.toList = ring.close.flatMap GeoPoint.axes := by
  obtain ⟨⟨-, -, hglobe⟩, rfl⟩ := literal_eq_ok_iff.mp h
  exact numbers_ringLiteral fun p hp => (hglobe p (close_subset hp)).isFinite

end Polygon

/-! ## Numbers in fragments -/

/-- The numbers that a bound value hands to the engine. -/
def Param.numbers : Param → List Float
  | .double x => [x]
  | .text (some s) => Text.numbers s.toList
  | .json value => Text.numbers value.compact.toList
  | _ => []

/-- The numbers that a fragment hands to the engine, in reading order: those that it binds, and
those in the texts that it binds. -/
def Sql.numbers (sql : Sql) : List Float := sql.params.flatMap Param.numbers

namespace Sql

/-- Fragments in a row hand over the numbers of one after the other. -/
@[simp] theorem numbers_append (a b : Sql) : numbers (a ++ b) = numbers a ++ numbers b := by
  rw [numbers, params_append, List.flatMap_append]
  rfl

/-- Text of a statement hands over nothing. -/
@[simp] theorem numbers_text (s : String) : numbers (text s) = [] := rfl

/-- A bound value hands over its own numbers. -/
@[simp] theorem numbers_bind (value : Param) : numbers (bind value) = value.numbers := by
  simp [numbers, bind, params, Token.param?]

@[simp] theorem numbers_bindText (s : String) : numbers (bindText s) = Text.numbers s.toList :=
  numbers_bind _

/-- The constructor of a point hands over its coordinates. -/
@[simp] theorem numbers_point (p : GeoPoint) : numbers p.sql = p.axes := by
  simp [GeoPoint.sql, GeoPoint.axes, Param.numbers]

end Sql

/-! ## Points in their written forms -/

/-- A point whose coordinates go by their names. -/
structure IsTagged (value : Json) (p : GeoPoint) : Prop where
  tag : value.typeTag? = some "GeoPoint"
  latitude : (value.get? "latitude").bind Json.toFloat? = some p.latitude
  longitude : (value.get? "longitude").bind Json.toFloat? = some p.longitude

/-- A point as a pair of its longitude and its latitude. -/
inductive IsPair : Json → GeoPoint → Prop
  | mk {first second : Json} {p : GeoPoint} (longitude : first.toFloat? = some p.longitude)
      (latitude : second.toFloat? = some p.latitude) : IsPair (.arr [first, second]) p

/-- A vertex of a tagged polygon: a pair of a latitude and a longitude. -/
inductive IsVertex : Json → GeoPoint → Prop
  | mk {first second : Json} {p : GeoPoint} (latitude : first.toFloat? = some p.latitude)
      (longitude : second.toFloat? = some p.longitude) : IsVertex (.arr [first, second]) p

/-- A polygon whose vertices are under its tag. -/
structure IsTaggedRing (value : Json) (ring : Polygon) : Prop where
  tag : value.typeTag? = some "Polygon"
  vertices : ∃ items, value.get? "coordinates" = some (.arr items)
    ∧ List.Forall₂ IsVertex items ring

/-- A ring in one of the forms of a polygon to lie in. -/
inductive GivesRing : Json → Polygon → Prop
  | tagged {value : Json} {ring : Polygon} (h : IsTaggedRing value ring) : GivesRing value ring
  | listed {items : List Json} {ring : Polygon}
      (h : List.Forall₂ (fun item p => IsTagged item p ∨ IsPair item p) items ring) :
      GivesRing (.arr items) ring

variable {value : Json} {p : GeoPoint} {ring : Polygon}

/-- What is read item by item is read as a list. -/
theorem mapM_eq_some {α β : Type} {f : α → Option β} {items : List α} {answers : List β}
    (h : List.Forall₂ (fun item answer => f item = some answer) items answers) :
    items.mapM f = some answers := by
  induction h with
  | nil => rfl
  | cons hitem _ ih => simp [hitem, ih]

/-- A tagged value is not null. -/
theorem isNull_of_typeTag? {tag : String} (h : value.typeTag? = some tag) :
    value.isNull = false := by
  cases value with
  | null => exact nomatch h
  | _ => rfl

/-- A tagged point is read as the point. -/
theorem ofJson?_of_isTagged (h : IsTagged value p) : GeoPoint.ofJson? value = some p := by
  obtain ⟨latitude, hlatitude, hx⟩ := Option.bind_eq_some_iff.mp h.latitude
  obtain ⟨longitude, hlongitude, hy⟩ := Option.bind_eq_some_iff.mp h.longitude
  simp [GeoPoint.ofJson?, Json.ofTag?, h.tag, hlatitude, hx, hlongitude, hy]

/-- A tagged point is read as the point where pairs are read too. -/
theorem ofJsonOrPair?_of_isTagged (h : IsTagged value p) :
    GeoPoint.ofJsonOrPair? value = some p := by
  simp [GeoPoint.ofJsonOrPair?, ofJson?_of_isTagged h]

/-- A pair is read as the point with its longitude first. -/
theorem ofJsonOrPair?_of_isPair (h : IsPair value p) : GeoPoint.ofJsonOrPair? value = some p := by
  obtain ⟨longitude, latitude⟩ := h
  have htagged : ∀ items, GeoPoint.ofJson? (.arr items) = none := fun _ => rfl
  simp [GeoPoint.ofJsonOrPair?, htagged, longitude, latitude]

/-- A vertex is read as the point with its latitude first. -/
theorem vertex?_of_isVertex (h : IsVertex value p) : Polygon.vertex? value = some p := by
  obtain ⟨latitude, longitude⟩ := h
  simp [Polygon.vertex?, latitude, longitude]

/-- A tagged polygon is read as its vertices. -/
theorem ofJson?_of_isTaggedRing (h : IsTaggedRing value ring) :
    Polygon.ofJson? value = some ring := by
  obtain ⟨items, hitems, hvertices⟩ := h.vertices
  have hread : Polygon.vertices? items = some ring :=
    mapM_eq_some (hvertices.imp fun _ _ hvertex => vertex?_of_isVertex hvertex)
  simp [Polygon.ofJson?, Json.ofTag?, h.tag, hitems, Json.arr?, hread]

/-! ## Points to store -/

namespace FieldType

variable {sql : Sql}

/-- A stored point hands over its coordinates, longitude first. -/
theorem numbers_encode_point (hp : IsTagged value p)
    (h : encode .geoPoint value = .ok (some sql)) : sql.numbers = p.axes := by
  rw [encode, isNull_of_typeTag? hp.tag] at h
  obtain ⟨_, hcolumn, hsql⟩ := map_eq_ok.mp h
  obtain rfl := Option.some.inj hsql
  rw [encodeColumn, encodePoint, ofJson?_of_isTagged hp] at hcolumn
  obtain ⟨_, -, hcolumn⟩ := bind_eq_ok.mp hcolumn
  obtain rfl := pure_eq_ok.mp hcolumn
  exact Sql.numbers_point p

/-- A stored polygon hands over the coordinates of its closed ring, longitudes first. -/
theorem numbers_encode_ring (hring : IsTaggedRing value ring)
    (h : encode .polygon value = .ok (some sql)) :
    sql.numbers = ring.close.flatMap GeoPoint.axes := by
  rw [encode, isNull_of_typeTag? hring.tag] at h
  -- the fragment is the cast of a bound literal
  obtain ⟨_, hcolumn, hsql⟩ := map_eq_ok.mp h
  obtain rfl := Option.some.inj hsql
  rw [encodeColumn, encodePolygon, ofJson?_of_isTaggedRing hring] at hcolumn
  obtain ⟨_, htext, hcolumn⟩ := bind_eq_ok.mp hcolumn
  obtain rfl := pure_eq_ok.mp hcolumn
  rw [Sql.numbers_append, Sql.numbers_bindText, Sql.numbers_text, List.append_nil,
    Polygon.numbers_literal htext]

end FieldType

end ObjectStore
