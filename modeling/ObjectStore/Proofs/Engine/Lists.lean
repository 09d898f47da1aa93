import ObjectStore.Proofs.Decimal.Double
import ObjectStore.Proofs.Engine.Containment

/-!
# What operators come to on nothing

The store defines three functions on lists in documents. `array_add` puts values behind the items of
a list, `array_add_unique` also leaves out every item that came before, and `array_remove` leaves
out the items that the values contain. Lists of texts go through the same functions as documents,
and come back by the texts of their items; only the plain addition has an operator of its own.

`onNothing?` is what an expression with an operator comes to where its column holds nothing: it
counts as zero, or as the empty list. An addition to zero is the number itself (`value_zero_add`).
-/

namespace ObjectStore

/-! ## Equality of documents -/

namespace Json.Content

mutual

/-- Whether two values say the same. -/
def same : Content → Content → Bool
  | .null, .null => true
  | .bool a, .bool b => a == b
  | .number a, .number b => a == b
  | .str a, .str b => a == b
  | .arr items, .arr others => sameItems items others
  | .obj fields, .obj others => sameFields fields others
  | _, _ => false

/-- Whether two lists say the same, item by item. -/
def sameItems : List Content → List Content → Bool
  | [], [] => true
  | item :: rest, other :: others => same item other && sameItems rest others
  | _, _ => false

/-- Whether two objects say the same, member by member. -/
def sameFields : List (String × Content) → List (String × Content) → Bool
  | [], [] => true
  | (key, value) :: rest, (name, other) :: others =>
    key == name && same value other && sameFields rest others
  | _, _ => false

end

mutual

/-- Two values say the same only if they are one. -/
theorem same_iff (a b : Content) : same a b = true ↔ a = b := by
  cases a with
  | arr items => cases b <;> simp [same, sameItems_iff items]
  | obj fields => cases b <;> simp [same, sameFields_iff fields]
  | null | bool | number | str => cases b <;> simp [same]

/-- Two lists say the same only if they are one. -/
theorem sameItems_iff (items others : List Content) :
    sameItems items others = true ↔ items = others := by
  cases items with
  | nil => cases others <;> simp [sameItems]
  | cons item rest =>
    cases others with
    | nil => simp [sameItems]
    | cons other others => simp [sameItems, same_iff item, sameItems_iff rest]

/-- Two objects say the same only if they are one. -/
theorem sameFields_iff (fields others : List (String × Content)) :
    sameFields fields others = true ↔ fields = others := by
  match fields, others with
  | [], [] => simp [sameFields]
  | [], _ :: _ => simp [sameFields]
  | _ :: _, [] => simp [sameFields]
  | (key, value) :: rest, (name, other) :: others =>
    simp [sameFields, same_iff value, sameFields_iff rest, and_assoc]

end

instance : DecidableEq Content := fun a b => decidable_of_iff _ (same_iff a b)

end Json.Content

/-- Only a list of texts says what a list of texts says. -/
theorem Json.eq_ofStrings_iff {cell : Json} {texts : List String} :
    cell = ofStrings texts ↔ cell.content = .arr (texts.map .str) := by
  -- a double may say an integer, so what a value says does not always tell its constructor
  have hstr {v : Json} {s : String} (h : v.content = .str s) : v = .str s := by
    cases v with
    | str t =>
      obtain rfl := Content.str.inj h
      rfl
    | double x =>
      rw [content] at h
      split at h <;> cases h
    | null | bool | int | arr | obj => cases h
  have hitems {items : List Json} (h : contentItems items = texts.map .str) :
      items = texts.map .str := by
    induction texts generalizing items with
    | nil =>
      cases items with
      | nil => rfl
      | cons => cases h
    | cons text rest ih =>
      cases items with
      | nil => cases h
      | cons item items =>
        obtain ⟨hitem, hrest⟩ := List.cons.inj h
        rw [hstr hitem, ih hrest, List.map_cons]
  refine ⟨fun h => h ▸ content_ofStrings texts, ?_⟩
  intro h
  cases cell with
  | arr items => exact congrArg arr (hitems (Content.arr.inj h))
  | double x =>
    rw [content] at h
    split at h <;> cases h
  | null | bool | int | str | obj => cases h

namespace Engine

open Json (Content)

/-! ## Functions of lists -/

section Firsts

variable {α β : Type} [DecidableEq α]

/-- A list without the items that came before. -/
def firsts : List α → List α
  | [] => []
  | item :: rest => item :: (firsts rest).filter (· ≠ item)

/-- What is left of a list is in its order. -/
theorem firsts_sublist (items : List α) : (firsts items).Sublist items := by
  induction items with
  | nil => exact .slnil
  | cons item rest ih => exact .cons_cons item (List.filter_sublist.trans ih)

/-- What is left of a list has no item twice. -/
theorem nodup_firsts (items : List α) : (firsts items).Nodup := by
  induction items with
  | nil => exact .nil
  | cons item rest ih =>
    refine List.nodup_cons.mpr ⟨?_, ih.filter _⟩
    intro hmem
    simpa using (List.mem_filter.mp hmem).2

/-- Items that are all different stay. -/
theorem firsts_of_nodup {items : List α} (h : items.Nodup) : firsts items = items := by
  induction items with
  | nil => rfl
  | cons item rest ih =>
    obtain ⟨hnotMem, hrest⟩ := List.nodup_cons.mp h
    rw [firsts, ih hrest, List.filter_eq_self.mpr]
    intro other hother
    exact decide_eq_true fun heq => hnotMem (heq ▸ hother)

/-- The first ones of some items are as many as the items only if these are all different. -/
theorem map_firsts_eq_iff {γ : Type} (items : List γ) (key : γ → α) (f : α → β) (g : γ → β) :
    (firsts (items.map key)).map f = items.map g
      ↔ (items.map key).Nodup ∧ ∀ item ∈ items, f (key item) = g item := by
  constructor
  · intro h
    have hlength : (firsts (items.map key)).length = (items.map key).length := by
      rw [← List.length_map f, h, List.length_map, List.length_map]
    have hall := (firsts_sublist _).eq_of_length hlength
    rw [hall, List.map_map] at h
    exact ⟨hall ▸ nodup_firsts _, List.map_inj_left.mp h⟩
  · rintro ⟨hnodup, hsame⟩
    rw [firsts_of_nodup hnodup, List.map_map]
    exact List.map_inj_left.mpr hsame

end Firsts

/-- The functions on lists, by their names. -/
def listFunction? : String → Option (List Content → List Content → List Content)
  | "array_add" => some fun items values => items ++ values
  | "array_add_unique" => some fun items values => firsts (items ++ values)
  | "array_remove" => some fun items values =>
    items.filter fun item => !(Content.arr values).covers (.arr [item])
  | _ => none

/-- The text of an item, as items are taken out of a document: `jsonb_array_elements_text`. How the
engine writes what is no text is left to `write`. -/
def itemText (write : Content → String) : Content → Content
  | .null => .null
  | .str s => .str s
  | item => .str (write item)

/-! ## Expressions -/

/-- The function whose name stands between two parts of a text. -/
def namedFunction? (opening closing s : String) :
    Option (List Content → List Content → List Content) :=
  ["array_add", "array_add_unique", "array_remove"].findSome? fun name =>
    if s = opening ++ name ++ closing then listFunction? name else none

/-- The items of the list that is written in a text. -/
def itemsIn? (text : String) : Option (List Content) :=
  match Content.read? text with
  | some (.arr items) => some items
  | _ => none

/-- What an expression with an operator comes to on a column that holds nothing. -/
def onNothing? (write : Content → String) (column : ColumnType) (name : String) :
    Sql → Option Content
  | [.text "COALESCE(", .name named, .text ", 0) + ", .bind (.double x)] =>
    if named = name ∧ column = .double then some (.number (Decimal.value (0.0 + x))) else none
  | [.text "COALESCE(", .name named, .text ", '{}'::text[])", .text " || ",
      .bind (.text (some literal)), .text "::text[]"] =>
    if named = name ∧ column = .textArray then
      (Sql.readArray literal).map fun texts => .arr (texts.map .str)
    else none
  | [.text function, .text "COALESCE(", .name named, .text ", '{}'::text[])", .text "), ",
      .bind (.text (some values)), .text "::jsonb", .text ")))"] =>
    if named = name ∧ column = .textArray then do
      let apply ← namedFunction? "ARRAY(SELECT jsonb_array_elements_text(" "(to_jsonb(" function
      let values ← itemsIn? values
      some (.arr ((apply [] values).map (itemText write)))
    else none
  | [.text function, .name named, .text ", '[]'::jsonb), ", .bind (.text (some values)),
      .text "::jsonb", .text ")"] =>
    if named = name ∧ column = .json then do
      let apply ← namedFunction? "" "(COALESCE(" function
      let values ← itemsIn? values
      some (.arr (apply [] values))
    else none
  | _ => none

/-- What may be shown of a column that held nothing before it was assigned an expression. -/
def ShownOnNothing (write : Content → String) (column : ColumnType) (name : String) (sql : Sql)
    (cell : Json) : Prop :=
  onNothing? write column name sql = some cell.content ∨ Holds column sql cell

variable {write : Content → String} {column : ColumnType} {name : String} {sql : Sql} {cell : Json}

/-- What is stored begins with `NULL`, a point or a bound value. -/
theorem head?_of_holds (h : Holds column sql cell) :
    sql.head? = some (.text "NULL") ∨ sql.head? = some (.text "POINT(")
      ∨ ∃ value, sql.head? = some (.bind value) := by
  obtain ⟨held, hstores, -⟩ := h
  cases hstores with
  | nothing => exact .inl rfl
  | point => exact .inr (.inl rfl)
  | text | number | flag | moment | document | texts | polygon => exact .inr (.inr ⟨_, rfl⟩)

/-- What begins in another way is no value to store. -/
theorem shownOnNothing_iff {first : String} (hsql : sql.head? = some (.text first))
    (hnull : first ≠ "NULL") (hpoint : first ≠ "POINT(") :
    ShownOnNothing write column name sql cell
      ↔ onNothing? write column name sql = some cell.content := by
  refine or_iff_left ?_
  intro hholds
  rcases head?_of_holds hholds with h | h | ⟨value, h⟩
  · exact hnull (Token.text.inj (Option.some.inj (hsql.symm.trans h)))
  · exact hpoint (Token.text.inj (Option.some.inj (hsql.symm.trans h)))
  · cases hsql.symm.trans h

/-! ## Adding to zero -/

open Float.Model (UnpackedFloat Format)

/-- Zero added to a number other than the negative zero is this number. -/
theorem zero_add_of_ne (unpacked : UnpackedFloat) (h : unpacked ≠ .zero .negative) :
    UnpackedFloat.add Format.binary64 (.zero .positive) unpacked = unpacked := by
  cases unpacked with
  | zero sign =>
    cases sign with
    | positive => rfl
    | negative => exact absurd rfl h
  | notANumber | infinity | finite => rfl

/-- The zero that is written in the model is the positive one. -/
theorem unpack_zero : (0.0 : Float).toModel.unpack = .zero .positive := by
  have hmantissa : (Decimal.Dyadic.ofFloat 0.0).mantissa = 0 := by decide +kernel
  have hsign : Decimal.isNegative 0.0 = false := by decide +kernel
  rw [Decimal.unpack_eq (by decide +kernel), Decimal.unpacked, dif_pos hmantissa, hsign]
  rfl

/-- Adding to zero is done on the parts of a number. -/
theorem zero_add_eq (x : Float) : 0.0 + x
    = .ofModel (.pack (UnpackedFloat.add Format.binary64 (.zero .positive) x.toModel.unpack)) := by
  rw [← unpack_zero]
  rfl

/-- A number added to zero is that number. -/
theorem value_zero_add (x : Float) : Decimal.value (0.0 + x) = Decimal.value x := by
  by_cases hx : x.toModel.unpack = .zero .negative
  · -- only the sign of a negative zero goes
    have hsum : (0.0 : Float) + x = 0.0 := by
      rw [zero_add_eq, hx, ← Decimal.ofModel_pack_unpack 0.0, unpack_zero]
      rfl
    have hvalue (negative : Bool) (y : Float)
        (hy : y.toModel.unpack = .zero (Decimal.signOf negative)) : Decimal.value y = 0 := by
      have hunpacked := @Decimal.value_of_unpack y negative 0 0 hy
      simpa using hunpacked.2
    rw [hsum, hvalue false 0.0 unpack_zero, hvalue true x hx]
  · rw [zero_add_eq, zero_add_of_ne _ hx, Decimal.ofModel_pack_unpack]

end Engine

end ObjectStore
