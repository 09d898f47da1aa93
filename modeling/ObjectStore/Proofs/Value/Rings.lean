import ObjectStore.Proofs.Value.Geo

/-!
# Polygons as rings

A polygon has a literal if and only if its vertices lie on the globe and at three places at least
(`Polygon.literal_eq_ok_iff`). The literal is a text of a closed ring, and what is read of it is the
polygon, without its last vertex if this lies where the first one does (`Polygon.literal_readBack`).

The vertices that are counted lie at different places, which are all the places of the ring
(`Polygon.keeps_distinct`): they are three if and only if the ring has three places. A closed ring
with three places has four vertices (`Polygon.three_lt_length`), so the reader always drops the last
one.
-/

namespace ObjectStore

open Decimal Engine Result

namespace GeoPoint

/-- The point with whole coordinates. -/
def ofInts (place : Int × Int) : GeoPoint := ⟨Float.ofInt place.1, Float.ofInt place.2⟩

variable {place : Int × Int}

theorem spot_ofInts (h : place.1.natAbs ≤ 90 ∧ place.2.natAbs ≤ 180) :
    (ofInts place).spot = ((place.1 : ℚ), (place.2 : ℚ)) :=
  Prod.ext (value_ofInt_of_lt (z := place.1) (by omega)).2
    (value_ofInt_of_lt (z := place.2) (by omega)).2

theorem onGlobe_ofInts (h : place.1.natAbs ≤ 90 ∧ place.2.natAbs ≤ 180) :
    (ofInts place).OnGlobe := by
  have hlatitude : -90 ≤ place.1 ∧ place.1 ≤ 90 := by omega
  have hlongitude : -180 ≤ place.2 ∧ place.2 ≤ 180 := by omega
  refine ⟨(value_ofInt_of_lt (by omega)).1, (value_ofInt_of_lt (by omega)).1, ?_, ?_⟩
  · rw [spot_ofInts h]
    constructor <;> dsimp only <;> norm_cast
    exacts [hlatitude.1, hlatitude.2]
  · rw [spot_ofInts h]
    constructor <;> dsimp only <;> norm_cast
    exacts [hlongitude.1, hlongitude.2]

end GeoPoint

namespace Polygon

variable {ring : Polygon} {text fieldName : String}

theorem close_subset : ring.close ⊆ ring := by
  unfold close
  split
  next => exact List.Subset.refl ring
  next => exact List.append_subset.mpr ⟨List.Subset.refl ring, List.take_subset 1 ring⟩

theorem hasThree_of_nodup {spots : List (ℚ × ℚ)} (hnodup : spots.Nodup) (h : 3 ≤ spots.length) :
    HasThree spots := by
  match spots, h with
  | a :: b :: c :: rest, _ =>
    have hthree : [a, b, c].Sublist (a :: b :: c :: rest) :=
      (((List.nil_sublist rest).cons_cons c).cons_cons b).cons_cons a
    exact ⟨a, b, c, hnodup.sublist hthree, hthree.subset⟩
  | [], h | [_], h | [_, _], h => simp at h

/-- Three vertices are kept of the closed ring if the vertices lie at three places. -/
theorem three_le_distinct_iff (h : ∀ p ∈ ring, p.OnGlobe) :
    3 ≤ ring.close.distinct.length ↔ HasThree (ring.map GeoPoint.spot) := by
  have hclose := onGlobe_close h
  constructor
  · intro hlength
    rw [← List.length_map (f := GeoPoint.spot)] at hlength
    have hkeeps := keeps_distinct hclose
    obtain ⟨a, b, c, hnodup, hspots⟩ := hasThree_of_nodup hkeeps.nodup hlength
    exact ⟨a, b, c, hnodup, List.Subset.trans hspots
      (List.map_subset _ (List.Subset.trans hkeeps.subset close_subset))⟩
  · rintro ⟨a, b, c, hnodup, hspots⟩
    exact distinct_length hclose hnodup
      (List.Subset.trans hspots (List.map_subset _ subset_close))

/-- The polygons with a literal have three vertices at least, at three places at least, and all of
them on the globe. -/
theorem literal_eq_ok_iff : ring.literal = .ok text
    ↔ (3 ≤ ring.length ∧ HasThree (ring.map GeoPoint.spot) ∧ ∀ p ∈ ring, p.OnGlobe)
      ∧ text = ring.close.ringLiteral := by
  constructor
  · intro h
    unfold literal at h
    dsimp only at h
    split at h
    next => cases h
    next hlength =>
      split at h
      next => cases h
      next hdistinct =>
        obtain ⟨_, hvalid, htext⟩ := bind_eq_ok.mp h
        have hring : ∀ p ∈ ring, p.OnGlobe := fun p hp =>
          GeoPoint.validate_eq_ok_iff.mp (eq_ok_of_forM hvalid (subset_close hp))
        exact ⟨⟨by omega, (three_le_distinct_iff hring).mp (by omega), hring⟩,
          (Except.ok.inj htext).symm⟩
  · rintro ⟨⟨-, hthree, hring⟩, rfl⟩
    exact literal_eq hring hthree

/-- The closed ring ends at the place where it starts. -/
theorem ends_close (h : ∀ p ∈ ring, p.OnGlobe) :
    (ring.close.map GeoPoint.spot).head? = (ring.close.map GeoPoint.spot).getLast? := by
  unfold close
  split
  next hclosed => exact (isClosed_iff h).mp hclosed
  next =>
    cases ring with
    | nil => rfl
    | cons first rest =>
      rw [List.map_append, List.take_succ_cons, List.take_zero, List.map_singleton,
        List.getLast?_concat]
      rfl

/-- What lies at the end of a closed list lies at its start too. -/
theorem subset_dropLast {α : Type} {l : List α} (hclosed : l.head? = l.getLast?)
    (hlength : 2 ≤ l.length) : l ⊆ l.dropLast := by
  match l, hlength with
  | first :: second :: rest, _ =>
    intro x hx
    rw [← List.dropLast_append_getLast (List.cons_ne_nil first (second :: rest)),
      List.mem_append, List.mem_singleton] at hx
    refine hx.elim id ?_
    intro hlast
    rw [List.getLast?_eq_some_getLast (List.cons_ne_nil _ _)] at hclosed
    rw [hlast, ← Option.some.inj hclosed]
    exact List.mem_cons_self

/-- A closed ring with three places has four vertices. -/
theorem three_lt_length (hthree : HasThree (ring.map GeoPoint.spot))
    (hclosed : (ring.map GeoPoint.spot).head? = (ring.map GeoPoint.spot).getLast?) :
    3 < ring.length := by
  have hlength := three_le_length hthree
  obtain ⟨a, b, c, hnodup, hspots⟩ := hthree
  have hinner : HasThree (ring.map GeoPoint.spot).dropLast :=
    ⟨a, b, c, hnodup, List.Subset.trans hspots (subset_dropLast hclosed (by omega))⟩
  have hdrop := three_le_length hinner
  rw [List.length_dropLast, List.length_map] at hdrop
  omega

/-- A closed ring is read without the vertex that closes it. -/
theorem ofStored?_closed {gap : String} (hgap : Text.withoutBlanks gap = "")
    (h : ∀ p ∈ ring, p.OnGlobe) (hthree : HasThree (ring.map GeoPoint.spot))
    (hclosed : (ring.map GeoPoint.spot).head? = (ring.map GeoPoint.spot).getLast?)
    (hs : SpellsRing gap text (ring.close.map GeoPoint.place)) :
    ofStored? text = some ring.dropLast := by
  have hlength := three_lt_length hthree hclosed
  have hends : ring.isClosed = true := (isClosed_iff h).mpr hclosed
  have hne : ring ≠ [] := fun heq => absurd hlength (by rw [heq]; decide)
  rw [close, if_pos hends] at hs
  rw [ofStored?_of_spells hgap hs hne, hends, decide_eq_true hlength]
  rfl

/-- The literal of a polygon is read as the polygon, without the vertex that closes it. -/
theorem ofStored?_literal (h : ring.literal = .ok text) : ofStored? text
    = some (if (ring.map GeoPoint.spot).head? = (ring.map GeoPoint.spot).getLast?
      then ring.dropLast else ring) := by
  obtain ⟨⟨hlength, hthree, hring⟩, rfl⟩ := literal_eq_ok_iff.mp h
  have hspells := spellsRing_literal (onGlobe_close hring)
  split
  next hclosed => exact ofStored?_closed rfl hring hthree hclosed hspells
  next hopen => exact ofStored?_close rfl hring hopen hlength hspells

/-- A polygon has a literal if and only if it has three vertices at least, at three places at least,
and all of them on the globe. The literal is a text of a ring, longitudes first, that ends at the
place where it starts: of the vertices, and of the first one again if they end elsewhere. It is read
as the polygon, without its last vertex if this lies where the first one does. -/
theorem literal_readBack (ring : Polygon) (fieldName : String) :
    ((∃ text, ring.literal = .ok text)
      ↔ 3 ≤ ring.length ∧ HasThree (ring.map GeoPoint.spot) ∧ ∀ p ∈ ring, p.OnGlobe)
    ∧ ∀ text, ring.literal = .ok text →
      (∃ closed : Polygon, (closed = ring ∨ closed = ring ++ ring.take 1)
        ∧ (closed.map GeoPoint.spot).head? = (closed.map GeoPoint.spot).getLast?
        ∧ SpellsRing " " text (closed.map GeoPoint.place))
      ∧ FieldType.decode fieldName .polygon (.str text) = .ok (some (Polygon.toJson
        (if (ring.map GeoPoint.spot).head? = (ring.map GeoPoint.spot).getLast?
          then ring.dropLast else ring))) := by
  constructor
  · constructor
    · rintro ⟨text, h⟩
      exact (literal_eq_ok_iff.mp h).1
    · intro h
      exact ⟨_, literal_eq_ok_iff.mpr ⟨h, rfl⟩⟩
  intro text h
  refine ⟨⟨ring.close, ?_, ?_, ?_⟩, ?_⟩
  · unfold close
    split
    next => exact .inl rfl
    next => exact .inr rfl
  · exact ends_close (literal_eq_ok_iff.mp h).1.2.2
  · obtain ⟨⟨-, -, hring⟩, rfl⟩ := literal_eq_ok_iff.mp h
    exact spellsRing_literal (onGlobe_close hring)
  · change (FieldType.decodeText fieldName text .polygon).map some = _
    rw [FieldType.decodeText, ofStored?_literal h]
    rfl

/-- The places of a walk that passes one of them twice and ends where it starts. -/
def walk : List (Int × Int) := [(0, 0), (0, 10), (10, 10), (0, 10), (0, 0)]

/-- The walk is read without its last vertex. The vertex that is passed twice is kept twice. -/
theorem walk_readBack : ∃ text, literal (walk.map GeoPoint.ofInts) = .ok text
    ∧ FieldType.decode "area" .polygon (.str text)
      = .ok (some (Polygon.toJson (walk.dropLast.map GeoPoint.ofInts))) := by
  have hwhole : ∀ place ∈ walk, place.1.natAbs ≤ 90 ∧ place.2.natAbs ≤ 180 := by decide
  have hspots : (walk.map GeoPoint.ofInts).map GeoPoint.spot
      = walk.map fun place => ((place.1 : ℚ), (place.2 : ℚ)) := by
    rw [List.map_map]
    exact List.map_congr_left fun place hplace => GeoPoint.spot_ofInts (hwhole place hplace)
  have hthree : HasThree ((walk.map GeoPoint.ofInts).map GeoPoint.spot) := by
    rw [hspots]
    exact ⟨(0, 0), (0, 10), (10, 10), by simp, by simp [walk]⟩
  obtain ⟨hiff, hread⟩ := literal_readBack (walk.map GeoPoint.ofInts) "area"
  obtain ⟨text, htext⟩ := hiff.mpr ⟨by decide, hthree, List.forall_mem_map.mpr fun place hplace =>
    GeoPoint.onGlobe_ofInts (hwhole place hplace)⟩
  refine ⟨text, htext, ?_⟩
  have hvalue := (hread text htext).2
  rw [hspots, if_pos (by rfl)] at hvalue
  exact hvalue

end Polygon

end ObjectStore
