import ObjectStore.Proofs.Engine.Column
import ObjectStore.Proofs.Result
import ObjectStore.Proofs.Text.Split
import ObjectStore.Value.Decode

/-!
# Stored points and polygons

The engine shows a point as two decimals in parentheses and a polygon as its points in parentheses,
the longitude of a point first. Such texts are read as what they stand for
(`GeoPoint.ofStored?_of_spells`, `Polygon.ofStored?_of_spells`), however the decimals are written.

The points on the globe are those that pass the check (`GeoPoint.validate_eq_ok_iff`). A ring of
them with vertices at three places is stored as the closed ring (`Polygon.literal_eq`). The vertex
that closes it is dropped when it is read, so an open ring is found again
(`Polygon.ofStored?_close`).
-/

namespace ObjectStore

open Decimal Engine

/-- What a decimal is written with is no blank. -/
theorem Text.isBlank_of_isDecimalChar {c : Char} (h : isDecimalChar c = true) :
    isBlank c = false := by
  unfold isDecimalChar at h
  simp only [Bool.or_eq_true, decide_eq_true_iff] at h
  rcases h with (((hdigit | rfl) | rfl) | rfl) | rfl
  · rw [Char.isDigit, Bool.and_eq_true, decide_eq_true_iff, decide_eq_true_iff] at hdigit
    have hleast : 48 ≤ c.toNat := hdigit.1
    have hgreatest : c.toNat ≤ 57 := hdigit.2
    simp [isBlank]
    omega
  all_goals rfl

/-- A decimal has no blanks to cut off. -/
theorem Text.trim_of_spells {s : String} {x : Float} (h : Spells s x) : trim s = s :=
  trim_eq_self fun c hc => isBlank_of_isDecimalChar (isDecimalChar_of_spells h c hc)

/-- A text without its blanks. -/
def Text.withoutBlanks (s : String) : String := String.ofList (s.toList.filter fun c => !isBlank c)

namespace Text

variable {s : String}

/-- Blanks are left out of each part of a text. -/
theorem withoutBlanks_append (a b : String) :
    withoutBlanks (a ++ b) = withoutBlanks a ++ withoutBlanks b := by
  rw [withoutBlanks, String.toList_append, List.filter_append, String.ofList_append]
  rfl

/-- A text without blanks is left as it is. -/
theorem withoutBlanks_eq_self (h : ∀ c ∈ s.toList, isBlank c = false) : withoutBlanks s = s := by
  rw [withoutBlanks, List.filter_eq_self.mpr fun c hc => by rw [h c hc]; rfl, String.ofList_toList]

/-- A decimal has no blanks to leave out. -/
theorem withoutBlanks_of_spells {x : Float} (h : Spells s x) : withoutBlanks s = s :=
  withoutBlanks_eq_self fun c hc => isBlank_of_isDecimalChar (isDecimalChar_of_spells h c hc)

/-- Blanks are left out of parts and of what is between them. -/
theorem withoutBlanks_join (separator : String) (parts : List String) :
    withoutBlanks (join separator parts)
      = join (withoutBlanks separator) (parts.map withoutBlanks) := by
  induction parts with
  | nil => rfl
  | cons part rest ih =>
    cases rest with
    | nil => rfl
    | cons next rest =>
      rw [join, withoutBlanks_append, withoutBlanks_append, ih]
      rfl

end Text

namespace GeoPoint

variable {x y : Float} {a b : String} {read : String → Option Float}

/-- The abscissa and the ordinate of a point, which are its longitude and its latitude. -/
def place (p : GeoPoint) : Float × Float := (p.longitude, p.latitude)

/-- Two coordinates are read from their texts with a comma between them. -/
theorem ofPair?_of_spells (ha : Spells a x) (hb : Spells b y)
    (hread : ∀ s z, Spells s z → read s = some z) :
    ofPair? read (a ++ "," ++ b) = some ⟨y, x⟩ := by
  have hcut : Text.cut? ',' (a ++ "," ++ b) = some (a, b) :=
    Text.cut?_append rfl (not_mem_of_spells ha rfl)
  unfold ofPair?
  rw [hcut]
  simp only [Option.bind_eq_bind, Option.bind_some, hread a x ha, hread b y hb]
  rfl

/-- What a text of a point holds between its parentheses. -/
theorem exists_inner {s : String} {p : Float × Float} (h : SpellsPair "" s p) :
    ∃ a b, s = "(" ++ (a ++ "," ++ b) ++ ")" ∧ Spells a p.1 ∧ Spells b p.2 := by
  obtain ⟨a, b, rfl, ha, hb⟩ := h
  exact ⟨a, b, by simp only [String.append_empty, String.append_assoc], ha, hb⟩

/-- No character of a text of a point is blank. -/
theorem isBlank_of_spellsPair {s : String} {p : Float × Float} (h : SpellsPair "" s p) :
    ∀ c ∈ s.toList, Text.isBlank c = false := by
  obtain ⟨a, b, rfl, ha, hb⟩ := exists_inner h
  intro c hc
  simp only [String.toList_append, List.mem_append] at hc
  rcases hc with (hc | (hc | hc) | hc) | hc
  · cases List.mem_singleton.mp hc
    rfl
  · exact Text.isBlank_of_isDecimalChar (isDecimalChar_of_spells ha c hc)
  · cases List.mem_singleton.mp hc
    rfl
  · exact Text.isBlank_of_isDecimalChar (isDecimalChar_of_spells hb c hc)
  · cases List.mem_singleton.mp hc
    rfl

/-- A stored point is read as the point that its text stands for. -/
theorem ofStored?_of_spells {s : String} {p : GeoPoint} (h : SpellsPair "" s p.place) :
    ofStored? s = some p := by
  have htrim := Text.trim_eq_self (isBlank_of_spellsPair h)
  obtain ⟨a, b, rfl, ha, hb⟩ := exists_inner h
  have hread (s : String) (z : Float) (hs : Spells s z) : readDouble? (Text.trim s) = some z := by
    rw [Text.trim_of_spells hs, readDouble?_of_spells hs]
  have hpair : ofPair? (fun s => readDouble? (Text.trim s)) (a ++ "," ++ b) = some p :=
    ofPair?_of_spells ha hb hread
  unfold ofStored?
  rw [htrim, String.append_assoc, Text.dropStart?_append]
  simp only [Option.bind_eq_bind, Option.bind_some]
  rw [Text.dropEnd?_append]
  exact hpair

end GeoPoint

namespace Polygon

variable {s : String} {ring : Polygon}

/-- A text of a ring is still one without its blanks, as they are only between the parts. -/
theorem spellsRing_withoutBlanks {gap : String} {places : List (Float × Float)}
    (hgap : Text.withoutBlanks gap = "") (h : SpellsRing gap s places) :
    SpellsRing "" (Text.withoutBlanks s) places := by
  obtain ⟨parts, rfl, hparts⟩ := h
  refine ⟨parts.map Text.withoutBlanks, ?_, ?_⟩
  · simp only [Text.withoutBlanks_append, Text.withoutBlanks_join, hgap]
    rfl
  · refine List.forall₂_map_left_iff.mpr (hparts.imp ?_)
    rintro part p ⟨a, b, rfl, ha, hb⟩
    refine ⟨a, b, ?_, ha, hb⟩
    simp only [Text.withoutBlanks_append, Text.withoutBlanks_of_spells ha,
      Text.withoutBlanks_of_spells hb, hgap]
    rfl

/-- Texts in parentheses with commas between them. -/
theorem join_parens (first : String) (rest : List String) :
    Text.join "," ((first :: rest).map fun inner => "(" ++ inner ++ ")")
      = "(" ++ (Text.join "),(" (first :: rest) ++ ")") := by
  induction rest generalizing first with
  | nil => exact String.append_assoc
  | cons second rest ih =>
    have hcons : Text.join "," ((first :: second :: rest).map fun inner => "(" ++ inner ++ ")")
        = "(" ++ first ++ ")" ++ ","
          ++ Text.join "," ((second :: rest).map fun inner => "(" ++ inner ++ ")") := rfl
    have hmark : ")" ++ ("," ++ "(") = "),(" := rfl
    rw [hcons, ih, Text.join, ← hmark]
    simp only [String.append_assoc]

/-- The points of a ring stand in parentheses, have none inside, and are read as they were written.
-/
theorem exists_inners {parts : List String}
    (h : List.Forall₂ (SpellsPair "") parts (ring.map GeoPoint.place)) :
    ∃ inners : List String, parts = inners.map (fun inner => "(" ++ inner ++ ")")
      ∧ (∀ inner ∈ inners, ')' ∉ inner.toList)
      ∧ inners.mapM (GeoPoint.ofPair? readDouble?) = some ring := by
  induction ring generalizing parts with
  | nil =>
    cases h
    exact ⟨[], rfl, by rintro _ ⟨⟩, rfl⟩
  | cons p ring ih =>
    cases h with
    | cons hpart hparts =>
      obtain ⟨a, b, rfl, ha, hb⟩ := GeoPoint.exists_inner hpart
      obtain ⟨inners, rfl, hplain, hread⟩ := ih hparts
      refine ⟨(a ++ "," ++ b) :: inners, rfl, List.forall_mem_cons.mpr ⟨?_, hplain⟩, ?_⟩
      · simp only [String.toList_append, List.mem_append, not_or]
        exact ⟨⟨not_mem_of_spells ha rfl, by decide⟩, not_mem_of_spells hb rfl⟩
      · have hfirst : GeoPoint.ofPair? readDouble? (a ++ "," ++ b) = some p :=
          GeoPoint.ofPair?_of_spells ha hb fun s z => readDouble?_of_spells
        rw [List.mapM_cons, hfirst, hread]
        rfl

/-- A stored polygon is read as the ring that its text stands for, without the vertex that closes
it. Blanks behind the commas do not count. -/
theorem ofStored?_of_spells {gap : String} (hgap : Text.withoutBlanks gap = "")
    (h : SpellsRing gap s (ring.map GeoPoint.place)) (hne : ring ≠ []) :
    ofStored? s = some (if 3 < ring.length && isClosed ring then ring.dropLast else ring) := by
  obtain ⟨parts, hs, hparts⟩ := spellsRing_withoutBlanks hgap h
  obtain ⟨inners, rfl, hplain, hread⟩ := exists_inners hparts
  obtain ⟨first, rest, rfl⟩ : ∃ first rest, inners = first :: rest := by
    cases inners with
    | nil => exact absurd (Option.some.inj hread).symm hne
    | cons first rest => exact ⟨first, rest, rfl⟩
  have hstart : Text.withoutBlanks s = "((" ++ (Text.join "),(" (first :: rest) ++ "))") := by
    have hopen : "(" ++ "(" = "((" := rfl
    have hclose : ")" ++ ")" = "))" := rfl
    have hcomma : "," ++ "" = "," := rfl
    rw [hs, hcomma, join_parens, ← hopen, ← hclose]
    simp only [String.append_assoc]
  have hsplit : Text.splitAt "),(" (Text.join "),(" (first :: rest)) = first :: rest :=
    Text.splitAt_join rfl (List.cons_ne_nil _ _) hplain
  unfold ofStored?
  dsimp only
  rw [← Text.withoutBlanks, hstart, Text.dropStart?_append]
  simp only [Option.bind_eq_bind, Option.bind_some]
  rw [Text.dropEnd?_append]
  simp only [Option.bind_some]
  rw [hsplit, hread]
  rfl

/-- A text of no points at all is no polygon. -/
theorem ofStored?_of_spells_nil {gap : String} (h : SpellsRing gap s []) : ofStored? s = none := by
  obtain ⟨parts, rfl, hparts⟩ := h
  cases hparts
  change ofStored? "()" = none
  decide +kernel

end Polygon

namespace GeoPoint

/-- The latitude and the longitude of a point, as numbers. -/
def spot (p : GeoPoint) : ℚ × ℚ := (value p.latitude, value p.longitude)

/-- A point lies on the globe. -/
structure OnGlobe (p : GeoPoint) : Prop where
  isFinite_latitude : p.latitude.isFinite = true
  isFinite_longitude : p.longitude.isFinite = true
  latitude_bounds : -90 ≤ p.spot.1 ∧ p.spot.1 ≤ 90
  longitude_bounds : -180 ≤ p.spot.2 ∧ p.spot.2 ≤ 180

variable {p q : GeoPoint}

/-- Bounds that are whole numbers of a small size are those that a number is compared with exactly.
-/
theorem within_iff {low high : Int} {x : Float} (hlow : low.natAbs < 2 ^ 53)
    (hhigh : high.natAbs < 2 ^ 53) (hx : x.isFinite = true) :
    within (Float.ofInt low) (Float.ofInt high) x = true ↔ low ≤ value x ∧ value x ≤ high := by
  obtain ⟨hfinite, hvalue⟩ := value_ofInt_of_lt hlow
  obtain ⟨hfinite', hvalue'⟩ := value_ofInt_of_lt hhigh
  rw [within, Bool.and_eq_true, decide_eq_true_iff, decide_eq_true_iff, le_iff hfinite hx,
    le_iff hx hfinite', hvalue, hvalue']

/-- The check of a latitude is that of its value. -/
theorem isLatitude_iff {x : Float} (hx : x.isFinite = true) :
    within (-90.0) 90.0 x = true ↔ -90 ≤ value x ∧ value x ≤ 90 := by
  have hbounds : (-90.0 : Float) = Float.ofInt (-90) ∧ (90.0 : Float) = Float.ofInt 90 := by
    decide +kernel
  rw [hbounds.1, hbounds.2, within_iff (by decide) (by decide) hx]
  norm_cast

/-- The check of a longitude is that of its value. -/
theorem isLongitude_iff {x : Float} (hx : x.isFinite = true) :
    within (-180.0) 180.0 x = true ↔ -180 ≤ value x ∧ value x ≤ 180 := by
  have hbounds : (-180.0 : Float) = Float.ofInt (-180) ∧ (180.0 : Float) = Float.ofInt 180 := by
    decide +kernel
  rw [hbounds.1, hbounds.2, within_iff (by decide) (by decide) hx]
  norm_cast

/-- The points that pass the check are those on the globe. -/
theorem validate_eq_ok_iff : p.validate = .ok () ↔ p.OnGlobe := by
  constructor
  · intro h
    unfold validate at h
    split at h
    next => cases h
    next hfinite =>
      split at h
      next => cases h
      next hlatitude =>
        split at h
        next => cases h
        next hlongitude =>
          simp only [Bool.not_eq_true', Bool.or_eq_true, not_or, Bool.not_eq_false] at *
          exact ⟨hfinite.1, hfinite.2, (isLatitude_iff hfinite.1).mp hlatitude,
            (isLongitude_iff hfinite.2).mp hlongitude⟩
  · intro h
    rw [validate, h.isFinite_latitude, h.isFinite_longitude,
      (isLatitude_iff h.isFinite_latitude).mpr h.latitude_bounds,
      (isLongitude_iff h.isFinite_longitude).mpr h.longitude_bounds]
    rfl

/-- Points on the globe are the same if their coordinates have the same values. -/
theorem sameAs_iff (hp : p.OnGlobe) (hq : q.OnGlobe) : p.sameAs q = true ↔ p.spot = q.spot := by
  rw [sameAs, Bool.and_eq_true, beq_iff hp.isFinite_latitude hq.isFinite_latitude,
    beq_iff hp.isFinite_longitude hq.isFinite_longitude, spot, spot, Prod.mk.injEq]

/-- The literal of a point is a text of it. -/
theorem spellsPair_literal (h : p.OnGlobe) : SpellsPair " " p.literal p.place := by
  have hlongitude := spells_write .plain h.isFinite_longitude
  have hlatitude := spells_write .plain h.isFinite_latitude
  exact ⟨_, _, rfl, hlongitude, hlatitude⟩

/-- A point on the globe has a text, with any gap between its coordinates. -/
theorem exists_spellsPair (gap : String) (h : p.OnGlobe) : ∃ s, SpellsPair gap s p.place := by
  have hlongitude := spells_write .plain h.isFinite_longitude
  have hlatitude := spells_write .plain h.isFinite_latitude
  exact ⟨_, _, _, rfl, hlongitude, hlatitude⟩

end GeoPoint

namespace Polygon

variable {s : String} {ring : Polygon}

/-- A ring on the globe has a text, with any gap between its points. -/
theorem exists_spellsRing (gap : String) (h : ∀ p ∈ ring, p.OnGlobe) :
    ∃ s, SpellsRing gap s (ring.map GeoPoint.place) := by
  suffices hparts : ∃ parts, List.Forall₂ (SpellsPair gap) parts (ring.map GeoPoint.place) by
    obtain ⟨parts, hparts⟩ := hparts
    exact ⟨_, parts, rfl, hparts⟩
  induction ring with
  | nil => exact ⟨[], .nil⟩
  | cons p ring ih =>
    obtain ⟨hp, hring⟩ := List.forall_mem_cons.mp h
    obtain ⟨part, hpart⟩ := GeoPoint.exists_spellsPair gap hp
    obtain ⟨parts, hparts⟩ := ih hring
    exact ⟨part :: parts, .cons hpart hparts⟩

/-- The literal of a ring on the globe is a text of it. -/
theorem spellsRing_literal (h : ∀ p ∈ ring, p.OnGlobe) :
    SpellsRing " " ring.ringLiteral (ring.map GeoPoint.place) := by
  refine ⟨ring.map GeoPoint.literal, rfl, ?_⟩
  rw [List.forall₂_map_left_iff, List.forall₂_map_right_iff, List.forall₂_same]
  intro p hp
  exact GeoPoint.spellsPair_literal (h p hp)

/-- What is kept of vertices: some of them, at different places, that lie at all their places. -/
structure Keeps (ring kept : Polygon) : Prop where
  subset : kept ⊆ ring
  nodup : (kept.map GeoPoint.spot).Nodup
  covers : ring.map GeoPoint.spot ⊆ kept.map GeoPoint.spot

/-- The distinct vertices of a ring are at different places, and at all places of the ring. -/
theorem keeps_distinct (h : ∀ p ∈ ring, p.OnGlobe) : ring.Keeps ring.distinct := by
  induction ring using List.reverseRecOn with
  | nil => exact ⟨List.Subset.refl [], List.nodup_nil, List.Subset.refl []⟩
  | append_singleton ring v ih =>
    have hring : ∀ p ∈ ring, p.OnGlobe := by
      intro p hp
      exact h p (List.mem_append_left [v] hp)
    have hv : v.OnGlobe := h v (List.mem_append_right ring (List.mem_singleton_self v))
    obtain ⟨hsubset, hnodup, hcovers⟩ := ih hring
    -- the vertex is left out if its place was met before
    have hany : (distinct ring).any v.sameAs = true
        ↔ v.spot ∈ (distinct ring).map GeoPoint.spot := by
      rw [List.any_eq_true, List.mem_map]
      refine exists_congr ?_
      intro w
      refine and_congr_right ?_
      intro hw
      rw [GeoPoint.sameAs_iff hv (hring w (hsubset hw)), eq_comm]
    rw [distinct, List.foldl_append, List.foldl_cons, List.foldl_nil, ← distinct]
    split
    next hseen =>
      refine ⟨List.subset_append_of_subset_left [v] hsubset, hnodup, ?_⟩
      rw [List.map_append, List.append_subset]
      refine ⟨hcovers, ?_⟩
      intro spot hlast
      rw [List.mem_singleton.mp hlast]
      exact hany.mp hseen
    next hseen =>
      refine ⟨?_, ?_, ?_⟩
      · exact List.append_subset.mpr
          ⟨List.subset_append_of_subset_left [v] hsubset, List.subset_append_right ring [v]⟩
      · rw [List.map_append, List.map_singleton, ← List.concat_eq_append, List.nodup_concat]
        exact ⟨mt hany.mpr hseen, hnodup⟩
      · rw [List.map_append, List.map_append]
        exact List.append_subset.mpr
          ⟨List.subset_append_of_subset_left _ hcovers, List.subset_append_right _ _⟩

/-- A ring has as many distinct vertices as there are different places among its own. -/
theorem distinct_length {spots : List (ℚ × ℚ)} (h : ∀ p ∈ ring, p.OnGlobe) (hnodup : spots.Nodup)
    (hspots : spots ⊆ ring.map GeoPoint.spot) : spots.length ≤ ring.distinct.length := by
  have hle := (hnodup.subperm (List.Subset.trans hspots (keeps_distinct h).covers)).length_le
  rw [List.length_map] at hle
  exact hle

end Polygon

namespace Polygon

variable {s : String} {ring : Polygon}

/-- A ring has three vertices that lie at different places. -/
def HasThree (spots : List (ℚ × ℚ)) : Prop :=
  ∃ a b c, [a, b, c].Nodup ∧ [a, b, c] ⊆ spots

/-- Three vertices at different places are three. -/
theorem three_le_length {spots : List (ℚ × ℚ)} (h : HasThree spots) : 3 ≤ spots.length := by
  obtain ⟨a, b, c, hnodup, hspots⟩ := h
  exact (hnodup.subperm hspots).length_le

/-- Closing a ring leads nowhere off the globe. -/
theorem onGlobe_close (h : ∀ p ∈ ring, p.OnGlobe) : ∀ p ∈ ring.close, p.OnGlobe := by
  intro p hp
  rw [close] at hp
  split at hp
  · exact h p hp
  · rcases List.mem_append.mp hp with hp | hp
    · exact h p hp
    · exact h p (List.mem_of_mem_take hp)

/-- Closing a ring leaves out none of its vertices. -/
theorem subset_close : ring ⊆ ring.close := by
  rw [close]
  split
  · exact fun _ h => h
  · exact List.subset_append_left _ _

/-- The literal of a ring on the globe with three vertices is that of the closed ring. -/
theorem literal_eq (h : ∀ p ∈ ring, p.OnGlobe) (hthree : HasThree (ring.map GeoPoint.spot)) :
    ring.literal = .ok ring.close.ringLiteral := by
  have hlength := three_le_length hthree
  have hclose := onGlobe_close h
  obtain ⟨a, b, c, hnodup, hspots⟩ := hthree
  have hdistinct : 3 ≤ ring.close.distinct.length := by
    refine distinct_length hclose hnodup ?_
    intro spot hspot
    exact List.map_subset _ subset_close (hspots hspot)
  have hvalid : ring.close.forM GeoPoint.validate = .ok () := by
    generalize ring.close = closed at hclose
    induction closed with
    | nil => rfl
    | cons p rest ih =>
      obtain ⟨hp, hrest⟩ := List.forall_mem_cons.mp hclose
      change (p.validate >>= fun _ => List.forM rest GeoPoint.validate) = _
      rw [GeoPoint.validate_eq_ok_iff.mpr hp]
      exact ih hrest
  rw [List.length_map] at hlength
  unfold literal
  dsimp only
  rw [if_neg (by omega), if_neg (by omega), hvalid]
  rfl

/-- A ring is closed if it ends at the place where it starts. -/
theorem isClosed_iff (h : ∀ p ∈ ring, p.OnGlobe) : ring.isClosed = true
    ↔ (ring.map GeoPoint.spot).head? = (ring.map GeoPoint.spot).getLast? := by
  rw [List.head?_map, List.getLast?_map]
  unfold isClosed
  split
  next first last hfirst hlast =>
    rw [hfirst, hlast, GeoPoint.sameAs_iff (h _ (List.mem_of_mem_head? hfirst))
      (h _ (List.mem_of_getLast? hlast))]
    exact Option.some_inj.symm
  next hfirst hlast =>
    rw [hfirst, hlast]
    exact iff_of_true rfl rfl
  next hsome hnone =>
    -- a ring without a first vertex has no last one either
    refine iff_of_false Bool.false_ne_true ?_
    intro heq
    cases hfirst : ring.head? with
    | none =>
      rw [hfirst] at heq
      exact hnone hfirst (Option.map_eq_none_iff.mp heq.symm)
    | some first =>
      rw [hfirst] at heq
      obtain ⟨last, hlast, -⟩ := Option.map_eq_some_iff.mp heq.symm
      exact hsome first last hfirst hlast

/-- An open ring is closed by its first vertex. -/
theorem isClosed_eq_false (h : ∀ p ∈ ring, p.OnGlobe)
    (hopen : (ring.map GeoPoint.spot).head? ≠ (ring.map GeoPoint.spot).getLast?) :
    ring.isClosed = false := by
  rw [← Bool.not_eq_true, isClosed_iff h]
  exact hopen

/-- An open ring is found again in the closed one. -/
theorem ofStored?_close {gap : String} (hgap : Text.withoutBlanks gap = "")
    (h : ∀ p ∈ ring, p.OnGlobe)
    (hopen : (ring.map GeoPoint.spot).head? ≠ (ring.map GeoPoint.spot).getLast?)
    (hlength : 3 ≤ ring.length) (hs : SpellsRing gap s (ring.close.map GeoPoint.place)) :
    ofStored? s = some ring := by
  cases ring with
  | nil => exact absurd hlength (by decide)
  | cons first rest =>
    have hclose : close (first :: rest) = (first :: rest) ++ [first] := by
      refine if_neg ?_
      rw [isClosed_eq_false h hopen]
      exact Bool.false_ne_true
    have hclosed : isClosed (first :: rest ++ [first]) = true := by
      have hfirst := h first List.mem_cons_self
      rw [isClosed, List.getLast?_append]
      exact (GeoPoint.sameAs_iff hfirst hfirst).mpr rfl
    rw [hclose] at hs
    rw [ofStored?_of_spells hgap hs (List.cons_ne_nil _ _), hclosed, List.dropLast_concat,
      Bool.and_true, if_pos]
    rw [decide_eq_true_iff, List.length_append, List.length_singleton]
    omega

/-- Texts of one ring are read alike. -/
theorem ofStored?_congr {t gap other : String} {places : List (Float × Float)}
    (hgap : Text.withoutBlanks gap = "") (hother : Text.withoutBlanks other = "")
    (hs : SpellsRing gap s places) (ht : SpellsRing other t places) :
    ofStored? s = ofStored? t := by
  obtain ⟨ring, rfl⟩ : ∃ ring : Polygon, places = ring.map GeoPoint.place := by
    refine ⟨places.map fun place => ⟨place.2, place.1⟩, ?_⟩
    rw [List.map_map, List.map_id'']
    exact fun _ => rfl
  by_cases hne : ring = []
  · subst hne
    rw [ofStored?_of_spells_nil hs, ofStored?_of_spells_nil ht]
  · rw [ofStored?_of_spells hgap hs hne, ofStored?_of_spells hother ht hne]

end Polygon
end ObjectStore
