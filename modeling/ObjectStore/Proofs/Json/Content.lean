import ObjectStore.Proofs.Json.Canonical
import ObjectStore.Proofs.Json.ReadBack
import ObjectStore.Value.Tag

/-!
# What JSON says

`1`, `1.0` and `1e0` are different values that say the same. `Json.content` is what a value says:
its numbers are rational numbers. Tagged values say the same if their parts do (`content_tagged`).
-/

namespace ObjectStore.Json

/-- What a value says. -/
inductive Content where
  | null
  | bool (b : Bool)
  | number (q : ℚ)
  | str (s : String)
  | arr (items : List Content)
  | obj (fields : List (String × Content))

mutual

/-- What a value says: every number is the number that it is, whether it is an integer or a double.
JSON has no other doubles than finite ones, and `null` stands for them. -/
def content : Json → Content
  | .null => .null
  | .bool b => .bool b
  | .int n => .number n
  | .double x => if x.isFinite then .number (Decimal.value x) else .null
  | .str s => .str s
  | .arr items => .arr (contentItems items)
  | .obj fields => .obj (contentFields fields)

/-- What every item says. -/
def contentItems : List Json → List Content
  | [] => []
  | item :: rest => content item :: contentItems rest

/-- What the value of every member says. -/
def contentFields : List (String × Json) → List (String × Content)
  | [] => []
  | (key, value) :: rest => (key, content value) :: contentFields rest

end

variable {v w : Json} {x : Float}

theorem content_double (h : x.isFinite = true) : content (.double x) = .number (Decimal.value x) :=
  if_pos h

/-- Storing a field and reading what a document says commute: the key decides the place, and only
the value is translated. -/
theorem contentFields_insert (fields : Object) (key : String) (value : Json) :
    contentFields (fields.insert key value)
      = Dict.insert (contentFields fields) key value.content := by
  induction fields with
  | nil => rfl
  | cons field rest ih =>
    obtain ⟨k, v⟩ := field
    rw [Dict.insert, contentFields, Dict.insert]
    split
    · rfl
    · split
      · rfl
      · rw [contentFields, ih]

/-- Objects made of entries that say the same say the same. -/
theorem content_ofEntries (entries : List (String × Json)) :
    (ofEntries entries).content
      = .obj (Dict.ofList (entries.map fun entry => (entry.1, entry.2.content))) := by
  have hfold (d : Object) : contentFields
      (entries.foldl (fun d entry => Dict.insert d entry.1 entry.2) d)
        = (entries.map fun entry => (entry.1, entry.2.content)).foldl
          (fun d entry => Dict.insert d entry.1 entry.2) (contentFields d) := by
    induction entries generalizing d with
    | nil => rfl
    | cons entry rest ih =>
      rw [List.foldl_cons, ih, List.map_cons, List.foldl_cons, contentFields_insert]
  exact congrArg Content.obj (hfold [])

/-- Tagged values say the same if their parts do. -/
theorem content_tagged (tag : String) (parts : List (String × Json)) :
    (tagged tag parts).content = .obj (Dict.ofList ((typeKey, .str tag)
      :: parts.map fun entry => (entry.1, entry.2.content))) :=
  content_ofEntries _

/-- A list of texts says these texts. -/
theorem content_ofStrings (texts : List String) :
    (ofStrings texts).content = .arr (texts.map .str) := by
  have hitems : contentItems (texts.map .str) = texts.map .str := by
    induction texts with
    | nil => rfl
    | cons text rest ih => rw [List.map_cons, contentItems, ih, content, List.map_cons]
  rw [ofStrings, content, hitems]

/-- What JSON can hold says something, unless it is nothing. -/
theorem content_ne_null (h : v.Representable) (hne : v ≠ .null) : v.content ≠ .null := by
  cases h with
  | null => exact absurd rfl hne
  | double hx =>
    rw [content_double hx]
    rintro ⟨⟩
  | bool | int | str | arr | obj => rintro ⟨⟩

mutual

/-- A canonical value is its own canonical form. -/
theorem canonical_eq_self (v : Json) (h : v.Canonical) : v.canonical = v := by
  cases v with
  | null | bool | int | double | str => rfl
  | arr items =>
    cases h with
    | arr hitems => rw [canonical, canonicalItems_eq_self items hitems]
  | obj fields =>
    cases h with
    -- the canonical form stores the fields one by one in an empty object
    | obj hsorted hfields =>
      rw [canonical, canonicalFields_eq_self fields hfields]
      exact congrArg Json.obj hsorted.nil_merge

theorem canonicalItems_eq_self (items : List Json) (h : ∀ item ∈ items, item.Canonical) :
    canonicalItems items = items := by
  cases items with
  | nil => rfl
  | cons item rest =>
    obtain ⟨hitem, hrest⟩ := List.forall_mem_cons.mp h
    rw [canonicalItems, canonical_eq_self item hitem, canonicalItems_eq_self rest hrest]

theorem canonicalFields_eq_self (fields : List (String × Json))
    (h : ∀ entry ∈ fields, entry.2.Canonical) : canonicalFields fields = fields := by
  cases fields with
  | nil => rfl
  | cons field rest =>
    obtain ⟨key, value⟩ := field
    obtain ⟨hvalue, hrest⟩ := List.forall_mem_cons.mp h
    rw [canonicalFields, canonical_eq_self value hvalue, canonicalFields_eq_self rest hrest]

end

end ObjectStore.Json
