import ObjectStore.Json.Basic
import ObjectStore.Proofs.Decimal.Double

/-!
# Equality of exact and of plain values

`==` on JSON compares doubles as numbers, so it is coarser than equality: it takes the two zeros
for one. On values without doubles, such as lists of groups and pointers, it is equality itself.

The two zeros are the only doubles that are one number (`Decimal.eq_of_value_eq`). So on values
without a negative zero, whose doubles are finite as all doubles of JSON are, `==` is equality too
(`Json.beq_iff_of_plain`).
-/

namespace ObjectStore.Json

mutual

/-- Whether no double stands in a value. -/
def isExact : Json → Bool
  | .double _ => false
  | .arr items => itemsAreExact items
  | .obj fields => membersAreExact fields
  | _ => true

/-- Whether no double stands in any of some values. -/
def itemsAreExact : List Json → Bool
  | [] => true
  | item :: rest => isExact item && itemsAreExact rest

/-- Whether no double stands in any of some members. -/
def membersAreExact : List (String × Json) → Bool
  | [] => true
  | (_, value) :: rest => isExact value && membersAreExact rest

end

/-- No double stands in a list if none stands in an item. -/
theorem isExact_arr {items : List Json} :
    (arr items).isExact = true ↔ ∀ item ∈ items, item.isExact = true := by
  rw [isExact]
  induction items with
  | nil => simp [itemsAreExact]
  | cons item rest ih => simp [itemsAreExact, ih]

/-- No double stands in an object if none stands in a member. -/
theorem isExact_obj {fields : List (String × Json)} :
    (obj fields).isExact = true ↔ ∀ entry ∈ fields, entry.2.isExact = true := by
  rw [isExact]
  induction fields with
  | nil => simp [membersAreExact]
  | cons entry rest ih => simp [membersAreExact, ih]

mutual

/-- Of two values that `==` takes for one, the second is exact if the first is. -/
theorem isExact_of_beq {a b : Json} (ha : a.isExact = true) (h : beq a b = true) :
    b.isExact = true := by
  match a with
  | .null | .bool _ | .int _ | .str _ => cases b <;> simp_all [beq, isExact]
  | .double x => simp [isExact] at ha
  | .arr items =>
    cases b <;> simp only [beq, Bool.false_eq_true] at h
    exact itemsAreExact_of_beq ha h
  | .obj fields =>
    cases b <;> simp only [beq, Bool.false_eq_true] at h
    exact membersAreExact_of_beq ha h

/-- Of two lists that `==` takes for one, the second is exact if the first is. -/
theorem itemsAreExact_of_beq {as bs : List Json} (ha : itemsAreExact as = true)
    (h : beqItems as bs = true) : itemsAreExact bs = true := by
  match as, bs with
  | [], [] => rfl
  | [], _ :: _ | _ :: _, [] => simp [beqItems] at h
  | a :: as, b :: bs =>
    simp only [itemsAreExact, Bool.and_eq_true] at ha ⊢
    simp only [beqItems, Bool.and_eq_true] at h
    exact ⟨isExact_of_beq ha.1 h.1, itemsAreExact_of_beq ha.2 h.2⟩

/-- Of two objects that `==` takes for one, the second is exact if the first is. -/
theorem membersAreExact_of_beq {as bs : List (String × Json)} (ha : membersAreExact as = true)
    (h : beqFields as bs = true) : membersAreExact bs = true := by
  match as, bs with
  | [], [] => rfl
  | [], _ :: _ | _ :: _, [] => simp [beqFields] at h
  | (k, a) :: as, (l, b) :: bs =>
    simp only [membersAreExact, Bool.and_eq_true] at ha ⊢
    simp only [beqFields, Bool.and_eq_true] at h
    exact ⟨isExact_of_beq ha.1 h.1.2, membersAreExact_of_beq ha.2 h.2⟩

end

mutual

/-- A value that `==` takes for an exact one is that one. -/
theorem eq_of_beq_exact {a b : Json} (hb : b.isExact = true) (h : beq a b = true) : a = b := by
  match b with
  | .null | .bool _ | .int _ | .str _ => cases a <;> simp_all [beq]
  | .double x => simp [isExact] at hb
  | .arr items =>
    cases a <;> simp only [beq, Bool.false_eq_true] at h
    simp only [isExact] at hb
    rw [eq_of_beqItems_exact hb h]
  | .obj fields =>
    cases a <;> simp only [beq, Bool.false_eq_true] at h
    simp only [isExact] at hb
    rw [eq_of_beqFields_exact hb h]

/-- A list that `==` takes for an exact one is that one. -/
theorem eq_of_beqItems_exact {as bs : List Json} (hb : itemsAreExact bs = true)
    (h : beqItems as bs = true) : as = bs := by
  match as, bs with
  | [], [] => rfl
  | [], _ :: _ | _ :: _, [] => simp [beqItems] at h
  | a :: as, b :: bs =>
    simp only [itemsAreExact, Bool.and_eq_true] at hb
    simp only [beqItems, Bool.and_eq_true] at h
    rw [eq_of_beq_exact hb.1 h.1, eq_of_beqItems_exact hb.2 h.2]

/-- An object that `==` takes for an exact one is that one. -/
theorem eq_of_beqFields_exact {as bs : List (String × Json)} (hb : membersAreExact bs = true)
    (h : beqFields as bs = true) : as = bs := by
  match as, bs with
  | [], [] => rfl
  | [], _ :: _ | _ :: _, [] => simp [beqFields] at h
  | (k, a) :: as, (l, b) :: bs =>
    simp only [membersAreExact, Bool.and_eq_true] at hb
    simp only [beqFields, Bool.and_eq_true, beq_iff_eq] at h
    rw [h.1.1, eq_of_beq_exact hb.1 h.1.2, eq_of_beqFields_exact hb.2 h.2]

end

mutual

/-- `==` takes an exact value for itself. -/
theorem beq_self_of_isExact {a : Json} (ha : a.isExact = true) : beq a a = true := by
  match a with
  | .null | .bool _ | .int _ | .str _ => simp [beq]
  | .double x => simp [isExact] at ha
  | .arr items => exact beqItems_self_of_exact ha
  | .obj fields => exact beqFields_self_of_exact ha

/-- `==` takes an exact list for itself. -/
theorem beqItems_self_of_exact {items : List Json} (h : itemsAreExact items = true) :
    beqItems items items = true := by
  match items with
  | [] => rfl
  | item :: rest =>
    rw [itemsAreExact, Bool.and_eq_true] at h
    rw [beqItems, beq_self_of_isExact h.1, beqItems_self_of_exact h.2]
    rfl

/-- `==` takes an exact object for itself. -/
theorem beqFields_self_of_exact {fields : List (String × Json)}
    (h : membersAreExact fields = true) : beqFields fields fields = true := by
  match fields with
  | [] => rfl
  | (key, value) :: rest =>
    rw [membersAreExact, Bool.and_eq_true] at h
    rw [beqFields, beq_self_eq_true, beq_self_of_isExact h.1, beqFields_self_of_exact h.2]
    rfl

end

/-- Two values that `==` takes for one are one, if either of them is exact. -/
theorem eq_of_beq {a b : Json} (hexact : a.isExact = true ∨ b.isExact = true)
    (h : (a == b) = true) : a = b :=
  eq_of_beq_exact (hexact.elim (fun ha => isExact_of_beq ha h) id) h

/-- Of two lists that `==` takes for one, the first holds every exact item of the second. -/
theorem mem_of_beqItems {items others : List Json} (h : beqItems items others = true)
    {item : Json} (hi : item ∈ others) (hexact : item.isExact = true) : item ∈ items := by
  induction items generalizing others with
  | nil =>
    cases others with
    | nil => exact hi
    | cons => simp [beqItems] at h
  | cons first rest ih =>
    cases others with
    | nil => exact (List.not_mem_nil hi).elim
    | cons next more =>
      rw [beqItems, Bool.and_eq_true] at h
      rcases List.mem_cons.mp hi with rfl | hi
      · rw [eq_of_beq (Or.inr hexact) h.1]
        exact List.mem_cons_self
      · exact List.mem_cons_of_mem _ (ih h.2 hi)

end ObjectStore.Json

namespace ObjectStore

namespace Decimal

variable {x y : Float}

/-- A number other than zero tells the sign bit of its double. -/
theorem isNegative_iff (h : value x ≠ 0) : isNegative x = true ↔ value x < 0 := by
  have hmagnitude : (0 : ℚ) ≤ (Dyadic.ofFloat x).mantissa * 2 ^ (Dyadic.ofFloat x).exponent := by
    positivity
  rw [value_eq] at h ⊢
  split
  next hsign =>
    rw [if_pos hsign] at h
    simpa [hsign] using lt_of_le_of_ne (neg_nonpos.mpr hmagnitude) h
  next hsign => simpa [hsign] using hmagnitude

/-- A finite double is the only one of its number and its sign bit. -/
theorem eq_of_value_eq (hx : x.isFinite = true) (hy : y.isFinite = true)
    (hvalue : value x = value y)
    (hsign : isNegative x = isNegative y) : x = y := by
  rw [value_eq, value_eq, hsign] at hvalue
  have hmagnitude : ((Dyadic.ofFloat x).mantissa * 2 ^ (Dyadic.ofFloat x).exponent : ℚ)
      = (Dyadic.ofFloat y).mantissa * 2 ^ (Dyadic.ofFloat y).exponent := by
    split at hvalue
    · exact neg_inj.mp hvalue
    · exact hvalue
  obtain ⟨hmantissa, hexponent⟩ := eq_of_eq (Dyadic.fits hx) (Dyadic.fits hy) hmagnitude
  -- a double is packed from its sign, its mantissa and its exponent
  have hunpack : x.toModel.unpack = y.toModel.unpack := by
    rw [unpack_eq hx, unpack_eq hy, hsign, hmantissa, hexponent]
  rw [← ofModel_pack_unpack x, hunpack, ofModel_pack_unpack]

/-- A double is finite and no negative zero. -/
structure IsPlain (x : Float) : Prop where
  isFinite : x.isFinite = true
  zero : value x = 0 → isNegative x = false

/-- Plain doubles are equal as numbers only if they are equal. -/
theorem beq_iff_of_isPlain (hx : IsPlain x) (hy : IsPlain y) : (x == y) = true ↔ x = y := by
  rw [beq_iff hx.isFinite hy.isFinite]
  constructor
  · intro hvalue
    refine eq_of_value_eq hx.isFinite hy.isFinite hvalue ?_
    by_cases hzero : value x = 0
    · rw [hx.zero hzero, hy.zero (hvalue ▸ hzero)]
    · rw [Bool.eq_iff_iff, isNegative_iff hzero, isNegative_iff (hvalue ▸ hzero), hvalue]
  · rintro rfl
    rfl

end Decimal

namespace Json

/-- All doubles in a value are finite, and none is a negative zero. -/
inductive Plain : Json → Prop where
  | null : Plain .null
  | bool (b : Bool) : Plain (.bool b)
  | int (n : Int) : Plain (.int n)
  | double {x : Float} (h : Decimal.IsPlain x) : Plain (.double x)
  | str (s : String) : Plain (.str s)
  | arr {items : List Json} (inside : ∀ item ∈ items, Plain item) : Plain (.arr items)
  | obj {fields : List (String × Json)} (inside : ∀ entry ∈ fields, Plain entry.2) :
      Plain (.obj fields)

/-- A list is plain if its items are. -/
theorem plain_arr {items : List Json} : Plain (.arr items) ↔ ∀ item ∈ items, item.Plain := by
  refine ⟨?_, .arr⟩
  intro h
  cases h with
  | arr inside => exact inside

/-- An object is plain if its members are. -/
theorem plain_obj {fields : Object} : Plain (.obj fields) ↔ ∀ entry ∈ fields, entry.2.Plain := by
  refine ⟨?_, .obj⟩
  intro h
  cases h with
  | obj inside => exact inside

mutual

/-- `==` on plain values is equality. -/
theorem beq_iff_of_plain {a b : Json} (ha : a.Plain) (hb : b.Plain) : beq a b = true ↔ a = b := by
  cases ha with
  | null | bool | int | str => cases hb <;> simp [beq]
  | double hx =>
    cases hb with
    | double hy => rw [beq, Decimal.beq_iff_of_isPlain hx hy, double.injEq]
    | _ => simp [beq]
  | @arr items hitems =>
    cases hb with
    | arr hothers => rw [beq, beqItems_iff_of_plain hitems hothers, arr.injEq]
    | _ => simp [beq]
  | @obj fields hfields =>
    cases hb with
    | obj hothers => rw [beq, beqFields_iff_of_plain hfields hothers, obj.injEq]
    | _ => simp [beq]
termination_by sizeOf a

/-- `==` on lists of plain values is equality. -/
theorem beqItems_iff_of_plain {items others : List Json} (hitems : ∀ item ∈ items, item.Plain)
    (hothers : ∀ item ∈ others, item.Plain) : beqItems items others = true ↔ items = others := by
  match items, others with
  | [], [] | [], _ :: _ | _ :: _, [] => simp [beqItems]
  | item :: rest, other :: more =>
    rw [List.forall_mem_cons] at hitems hothers
    rw [beqItems, Bool.and_eq_true, beq_iff_of_plain hitems.1 hothers.1,
      beqItems_iff_of_plain hitems.2 hothers.2, List.cons.injEq]
termination_by sizeOf items

/-- `==` on objects of plain values is equality. -/
theorem beqFields_iff_of_plain {fields others : List (String × Json)}
    (hfields : ∀ entry ∈ fields, entry.2.Plain) (hothers : ∀ entry ∈ others, entry.2.Plain) :
    beqFields fields others = true ↔ fields = others := by
  match fields, others with
  | [], [] | [], _ :: _ | _ :: _, [] => simp [beqFields]
  | (key, value) :: rest, (name, found) :: more =>
    rw [List.forall_mem_cons] at hfields hothers
    rw [beqFields, Bool.and_eq_true, Bool.and_eq_true, beq_iff_of_plain hfields.1 hothers.1,
      beqFields_iff_of_plain hfields.2 hothers.2, beq_iff_eq, List.cons.injEq, Prod.mk.injEq]
termination_by sizeOf fields

end

end Json

end ObjectStore
