import ObjectStore.Proofs.Dict
import ObjectStore.Proofs.Json.Content
import ObjectStore.Proofs.Time.Timestamp
import ObjectStore.Proofs.Value.Geo
import ObjectStore.Value.Encode

/-!
# Wire values

The values of a field as clients write them: for every type, its canonical values
(`FieldType.IsWire`). A number is any JSON number that is a double, a coordinate any that lies on
the globe, and a document any JSON other than `null`. Bytes are base64 texts of bytes.

The lemmas tell what the readers of tagged values find in tagged values, and which doubles the
numbers among their parts are.
-/

namespace ObjectStore

open Decimal

/-! ## Tagged values -/

namespace Json

variable {tag other key text : String} {parts : List (String × Json)} {v : Json}

/-- The parts of a tagged value are its members. -/
theorem get?_tagged (hparts : (parts.map Prod.fst).Nodup) (h : (key, v) ∈ parts) :
    (tagged tag parts).get? key = some v := by
  change (Dict.merge (Dict.insert [] typeKey (.str tag)) parts).get? key = some v
  exact Dict.get?_merge_of_mem hparts h

/-- A tagged value has its tag, if no part has the key of tags. -/
theorem typeTag?_tagged (hparts : typeKey ∉ parts.map Prod.fst) :
    (tagged tag parts).typeTag? = some tag := by
  have hget : (tagged tag parts).get? typeKey = some (.str tag) :=
    (Dict.get?_merge_of_notMem hparts).trans (Dict.get?_insert_self _ _ _)
  rw [typeTag?, hget]
  rfl

theorem ofTag?_tagged (hparts : typeKey ∉ parts.map Prod.fst) :
    (tagged tag parts).ofTag? tag = some (tagged tag parts) := by
  rw [ofTag?, typeTag?_tagged hparts, if_pos (beq_self_eq_true _)]

/-- The text of a part is found under the tag of the value. -/
theorem taggedText?_tagged (hparts : (typeKey :: parts.map Prod.fst).Nodup)
    (h : (key, .str text) ∈ parts) : (tagged tag parts).taggedText? tag key = some text := by
  rw [List.nodup_cons] at hparts
  rw [taggedText?, ofTag?_tagged hparts.1]
  simp only [Option.bind_eq_bind, Option.bind_some, get?_tagged hparts.2 h]
  rfl

/-- Under another tag nothing is found. -/
theorem taggedText?_of_ne (hparts : typeKey ∉ parts.map Prod.fst) (h : tag ≠ other) :
    (tagged tag parts).taggedText? other key = none := by
  have hne : (some tag == some other) = false := beq_false_of_ne (mt Option.some.inj h)
  rw [taggedText?, ofTag?, typeTag?_tagged hparts, hne, if_neg Bool.false_ne_true]
  rfl

/-- A tagged value with a scalar text is bound as this text. -/
theorem param_tagged (h : (tagged tag parts).scalarText? = some text) :
    (tagged tag parts).param = .text (some text) := by
  change Param.text (some ((tagged tag parts).scalarText?.getD _)) = _
  rw [h]
  rfl

end Json

/-! ## Numbers -/

namespace Json

variable {v : Json} {q : ℚ}

/-- A number is the double that it says. -/
theorem exists_toFloat? {x : Float} (h : v.content = .number (value x)) (hx : x.isFinite = true) :
    ∃ y, v.toFloat? = some y ∧ y.isFinite = true ∧ value y = value x := by
  cases v with
  | int n =>
    have hn : (n : ℚ) = value x := Content.number.inj h
    obtain ⟨hfinite, hvalue⟩ := value_ofInt hx hn.symm
    exact ⟨_, rfl, hfinite, hvalue.trans hn⟩
  | double y =>
    rw [content] at h
    split at h
    next hy => exact ⟨y, rfl, hy, Content.number.inj h⟩
    next => cases h
  | null | bool | str | arr | obj => cases h

/-- Small numbers are doubles, whether they are written as whole numbers or not. -/
theorem exists_double (h : v.content = .number q) (hlow : -(2 ^ 53) < q) (hhigh : q < 2 ^ 53) :
    ∃ x : Float, x.isFinite = true ∧ value x = q := by
  cases v with
  | int n =>
    have hn : (n : ℚ) = q := Content.number.inj h
    rw [← hn] at hlow hhigh ⊢
    refine exists_value_eq ?_
    have hlow' : -(2 ^ 53) < n := by exact_mod_cast hlow
    have hhigh' : n < 2 ^ 53 := by exact_mod_cast hhigh
    omega
  | double y =>
    rw [content] at h
    split at h
    next hy => exact ⟨y, hy, Content.number.inj h⟩
    next => cases h
  | null | bool | str | arr | obj => cases h

/-- A finite double is written as a number that says the double. -/
theorem content_ofFloat {x : Float} (h : x.isFinite = true) :
    (ofFloat x).content = .number (value x) := by
  rw [ofFloat, if_pos h, content_double h]

/-- A latitude and a longitude on the globe. -/
structure Coordinates (latitude longitude : Json) (spot : ℚ × ℚ) : Prop where
  content_latitude : latitude.content = .number spot.1
  content_longitude : longitude.content = .number spot.2
  latitude_bounds : -90 ≤ spot.1 ∧ spot.1 ≤ 90
  longitude_bounds : -180 ≤ spot.2 ∧ spot.2 ≤ 180

/-- Coordinates are those of a point. -/
theorem Coordinates.exists_point {latitude longitude : Json} {spot : ℚ × ℚ}
    (h : Coordinates latitude longitude spot) : ∃ p : GeoPoint, p.OnGlobe ∧ p.spot = spot
      ∧ latitude.toFloat? = some p.latitude ∧ longitude.toFloat? = some p.longitude
      ∧ (ofFloat p.latitude).content = latitude.content
      ∧ (ofFloat p.longitude).content = longitude.content := by
  obtain ⟨hlatitude, hlongitude, hbounds, hbounds'⟩ := h
  obtain ⟨a, ha, hvalue⟩ := exists_double hlatitude (by linarith) (by linarith)
  obtain ⟨b, hb, hvalue'⟩ := exists_double hlongitude (by linarith) (by linarith)
  rw [← hvalue] at hlatitude hbounds
  rw [← hvalue'] at hlongitude hbounds'
  obtain ⟨x, hx, hfinite, hsame⟩ := exists_toFloat? hlatitude ha
  obtain ⟨y, hy, hfinite', hsame'⟩ := exists_toFloat? hlongitude hb
  have hspot : GeoPoint.spot ⟨x, y⟩ = spot :=
    Prod.ext (hsame.trans hvalue) (hsame'.trans hvalue')
  refine ⟨⟨x, y⟩, ⟨hfinite, hfinite', ?_, ?_⟩, hspot, hx, hy, ?_, ?_⟩
  · change -90 ≤ value x ∧ value x ≤ 90
    rw [hsame]
    exact hbounds
  · change -180 ≤ value y ∧ value y ≤ 180
    rw [hsame']
    exact hbounds'
  · rw [content_ofFloat hfinite, hlatitude, hsame]
  · rw [content_ofFloat hfinite', hlongitude, hsame']

end Json

/-! ## Bytes -/

namespace Bytes

/-- The characters that stand for six bits, in the order of these. -/
def alphabet : List Char :=
  "ABCDEFGHIJKLMNOPQRSTUVWXYZabcdefghijklmnopqrstuvwxyz0123456789+/".toList

/-- The character that stands for six bits. -/
def sextetChar (n : Nat) : Char := alphabet.getD n '='

/-- The base64 text of some bytes. -/
def encode : List UInt8 → List Char
  | [] => []
  | [a] => [sextetChar (a.toNat / 4), sextetChar (a.toNat % 4 * 16), '=', '=']
  | [a, b] =>
    [sextetChar (a.toNat / 4), sextetChar (a.toNat % 4 * 16 + b.toNat / 16),
      sextetChar (b.toNat % 16 * 4), '=']
  | a :: b :: c :: rest =>
    sextetChar (a.toNat / 4) :: sextetChar (a.toNat % 4 * 16 + b.toNat / 16)
      :: sextetChar (b.toNat % 16 * 4 + c.toNat / 64) :: sextetChar (c.toNat % 64) :: encode rest

/-- Six bits are read back from their character. -/
theorem sextet?_sextetChar {n : Nat} (h : n < 64) : sextet? (sextetChar n) = some n := by
  have hall : ∀ k : Fin 64, sextet? (sextetChar k.val) = some k.val := by decide +kernel
  exact hall ⟨n, h⟩

/-- No six bits are written as padding. -/
theorem sextetChar_ne {n : Nat} (h : n < 64) : sextetChar n ≠ '=' := by
  intro heq
  have hnone := sextet?_sextetChar h
  rw [heq] at hnone
  cases hnone

/-- A group of four characters for three bytes is passed over. -/
theorem isEncoded_group {a b c d : Char} {rest : List Char} (hd : d ≠ '=')
    (ha : (sextet? a).isSome = true) (hb : (sextet? b).isSome = true)
    (hc : (sextet? c).isSome = true) (hd' : (sextet? d).isSome = true) :
    isEncoded (a :: b :: c :: d :: rest) = isEncoded rest := by
  rw [isEncoded, ha, hb, hc, hd']
  · rfl
  · rintro - rfl
    exact absurd rfl hd
  · rintro rfl
    exact absurd rfl hd

/-- The text of bytes is base64. -/
theorem isEncoded_encode (bytes : List UInt8) : isEncoded (encode bytes) = true := by
  induction bytes using encode.induct with
  | case1 => rfl
  | case2 a =>
    have ha := a.toNat_lt
    rw [encode, isEncoded, sextet?_sextetChar (by omega), sextet?_sextetChar (by omega)]
    simp
  | case3 a b =>
    have ha := a.toNat_lt
    have hb := b.toNat_lt
    rw [encode, isEncoded, sextet?_sextetChar (by omega), sextet?_sextetChar (by omega),
      sextet?_sextetChar (by omega)]
    · simp
    · exact fun h => absurd h (sextetChar_ne (by omega))
  | case4 a b c rest ih =>
    have ha := a.toNat_lt
    have hb := b.toNat_lt
    have hc := c.toNat_lt
    rw [encode, isEncoded_group (sextetChar_ne (by omega)), ih]
    all_goals
      rw [sextet?_sextetChar (by omega)]
      rfl

end Bytes

/-! ## Wire values -/

/-- Any JSON other than `null`, its members in key order. -/
structure Json.IsDocument (v : Json) : Prop where
  representable : v.Representable
  canonical : v.Canonical
  ne_null : v ≠ .null

/-- An object made of entries is a document if their values are JSON in key order. -/
theorem Json.isDocument_ofEntries {entries : List (String × Json)}
    (hrepresentable : ∀ entry ∈ entries, entry.2.Representable)
    (hcanonical : ∀ entry ∈ entries, entry.2.Canonical) : (ofEntries entries).IsDocument where
  representable := by
    refine .obj ?_
    intro entry hentry
    rcases Dict.mem_merge hentry with hnil | hgiven
    · exact absurd hnil List.not_mem_nil
    · exact hrepresentable entry hgiven
  canonical := canonical_ofEntries hcanonical
  ne_null := by rintro ⟨⟩

namespace FieldType

/-- The canonical wire values of a type. Relations have none, and neither has an absent value. -/
inductive IsWire : FieldType → Json → Prop
  | string (s : String) : IsWire .string (.str s)
  | number {v : Json} {x : Float} (hx : x.isFinite = true) (h : v.content = .number (value x)) :
    IsWire .number v
  | boolean (b : Bool) : IsWire .boolean (.bool b)
  | date {w : Timestamp.Written} (h : w.IsWire) : IsWire .date (.ofDate (String.ofList w.text))
  | object {v : Json} (h : v.IsDocument) : IsWire .object v
  | bytes (payload : List UInt8) :
    IsWire .bytes (.tagged "Bytes" [("base64", .str (String.ofList (Bytes.encode payload)))])
  | file (name : String) : IsWire .file (.ofFileName name)
  | geoPoint {latitude longitude : Json} {spot : ℚ × ℚ}
    (h : Json.Coordinates latitude longitude spot) :
    IsWire .geoPoint (.tagged "GeoPoint" [("latitude", latitude), ("longitude", longitude)])
  | polygon {vertices : List (Json × Json)} {spots : List (ℚ × ℚ)}
    (h : List.Forall₂ (fun v spot => Json.Coordinates v.1 v.2 spot) vertices spots)
    (hthree : Polygon.HasThree spots) (hopen : spots.head? ≠ spots.getLast?) :
    IsWire .polygon (.tagged "Polygon"
      [("coordinates", .arr (vertices.map fun v => .arr [v.1, v.2]))])
  | array {v : Json} (h : v.IsDocument) : IsWire .array v
  | texts (items : List String) : IsWire (.arrayOf .string) (.ofStrings items)
  | arrayOf {contents : FieldType} {v : Json} (hcontents : contents ≠ .string)
    (h : v.IsDocument) : IsWire (.arrayOf contents) v
  | pointer (target id : String) : IsWire (.pointer target) (Pointer.mk target id).toJson

end FieldType

end ObjectStore
