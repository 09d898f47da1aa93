import ObjectStore.Decimal.Shortest
import ObjectStore.Proofs.Decimal.Shortest

/-!
# Decimals as they are written

A written decimal is a sign, digits, digits behind a point and a signed exponent. It spells the
double that its sign and its magnitude name. Both layouts write a double as a decimal that spells it
(`exists_written`), and every decimal that spells a double is read as that double
(`readDouble?_of_spells`), whoever wrote it.
-/

namespace ObjectStore.Decimal

/-- A decimal as it is written. The exponent is its sign and its digits. -/
structure Written where
  negative : Bool
  whole : List Char
  fraction : List Char
  exponent : Option (Bool × List Char)

namespace Written

/-- The parts of a decimal that are written in digits are digits, and only the digits after the
point, or the exponent, may be left out. -/
structure WellFormed (w : Written) : Prop where
  whole_ne_nil : w.whole ≠ []
  isDigit_whole : ∀ c ∈ w.whole, c.isDigit = true
  isDigit_fraction : ∀ c ∈ w.fraction, c.isDigit = true
  exponent_ne_nil : ∀ e ∈ w.exponent, e.2 ≠ []
  isDigit_exponent : ∀ e ∈ w.exponent, ∀ c ∈ e.2, c.isDigit = true

/-- The point and what is behind it. -/
def fractionText (w : Written) : List Char := if w.fraction = [] then [] else '.' :: w.fraction

/-- The exponent with its mark. -/
def exponentText (w : Written) : List Char :=
  match w.exponent with
  | none => []
  | some (negative, digits) => 'e' :: (if negative then '-' else '+') :: digits

/-- The text without the sign. -/
def unsigned (w : Written) : List Char := w.whole ++ (w.fractionText ++ w.exponentText)

/-- The text. -/
def text (w : Written) : List Char := if w.negative then '-' :: w.unsigned else w.unsigned

/-- The number that the exponent stands for. -/
def exponent? (w : Written) : Option Int :=
  w.exponent.map fun (negative, digits) =>
    if negative then -(ofDigits digits : Int) else ofDigits digits

/-- The number without its sign. -/
def magnitude (w : Written) : ℚ :=
  ofDigits (w.whole ++ w.fraction) * 10 ^ (w.exponent?.getD 0 - w.fraction.length)

end Written

/-- A text spells a double: it is a decimal that names the double. -/
def Spells (text : String) (x : Float) : Prop :=
  ∃ w : Written, w.WellFormed ∧ text.toList = w.text ∧ Names w.negative w.magnitude x

/-! ## Reading -/

variable {digits rest : List Char} {w : Written} {x : Float}

/-- Digits are split off what goes on otherwise. -/
theorem takeDigits_append (hdigits : ∀ c ∈ digits, c.isDigit = true)
    (hrest : ∀ c ∈ rest.head?, c.isDigit = false) :
    takeDigits (digits ++ rest) = (digits, rest) := by
  have hnone : rest.takeWhile Char.isDigit = [] ∧ rest.dropWhile Char.isDigit = rest := by
    cases rest with
    | nil => exact ⟨rfl, rfl⟩
    | cons c rest =>
      have hc := hrest c rfl
      simp only [List.takeWhile_cons, List.dropWhile_cons, hc, Bool.false_eq_true, if_false,
        and_self]
  rw [takeDigits, List.takeWhile_append_of_pos hdigits, List.dropWhile_append_of_pos hdigits,
    hnone.1, hnone.2, List.append_nil]

/-- The sign of an exponent is always written, and taken off. -/
theorem takeSign_exponent (negative : Bool) (s : List Char) :
    takeSign ((if negative then '-' else '+') :: s) = (negative, s) := by
  cases negative <;> rfl

namespace Written

/-- An exponent is left out or starts with its mark. -/
theorem exponentText_cases (w : Written) :
    w.exponentText = [] ∨ ∃ s, w.exponentText = 'e' :: s := by
  unfold exponentText
  cases w.exponent with
  | none => exact Or.inl rfl
  | some e => exact Or.inr ⟨_, rfl⟩

/-- What comes behind the digits of a fraction is no digit. -/
theorem head?_exponentText : ∀ c ∈ w.exponentText.head?, c.isDigit = false := by
  intro c hc
  rcases exponentText_cases w with hnone | ⟨s, hsome⟩
  · rw [hnone] at hc
    cases hc
  · rw [hsome] at hc
    cases hc
    decide

/-- What comes behind the whole digits does not start with a digit. -/
theorem head?_fractionText : ∀ c ∈ (w.fractionText ++ w.exponentText).head?, c.isDigit = false := by
  intro c hc
  rw [fractionText] at hc
  split at hc
  · exact head?_exponentText c hc
  · cases hc
    decide

/-- Behind its sign a decimal starts with a digit. -/
theorem exists_cons_unsigned (h : w.WellFormed) :
    ∃ c s, w.unsigned = c :: s ∧ c.isDigit = true := by
  obtain ⟨c, s, hwhole⟩ := List.exists_cons_of_ne_nil h.whole_ne_nil
  have hc : c ∈ w.whole := by
    rw [hwhole]
    exact List.mem_cons_self
  refine ⟨c, s ++ (w.fractionText ++ w.exponentText), ?_, h.isDigit_whole c hc⟩
  rw [unsigned, hwhole]
  rfl

/-- The sign of a decimal is taken off; a text without one starts with a digit. -/
theorem takeSign_text (h : w.WellFormed) : takeSign w.text = (w.negative, w.unsigned) := by
  obtain ⟨c, s, hcons, hc⟩ := exists_cons_unsigned h
  unfold text
  cases w.negative with
  | true => rfl
  | false =>
    rw [if_neg Bool.false_ne_true, hcons, takeSign]
    · rintro s' heq
      cases heq
      exact absurd hc (by decide)
    · rintro s' heq
      cases heq
      exact absurd hc (by decide)

/-- The reader of an exponent reads the one that was written. -/
theorem readExponent?_exponentText (h : w.WellFormed) :
    readExponent? w.exponentText = some (w.exponent?.getD 0) := by
  unfold exponentText exponent?
  cases hexponent : w.exponent with
  | none => rfl
  | some e =>
    obtain ⟨negative, digits⟩ := e
    have hne := h.exponent_ne_nil _ hexponent
    have hdigits := h.isDigit_exponent _ hexponent
    have htake : takeDigits digits = (digits, []) := by
      have hnil := @takeDigits_append digits [] hdigits (by rintro c ⟨⟩)
      rw [List.append_nil] at hnil
      exact hnil
    dsimp only
    rw [readExponent?, if_pos (Or.inl rfl), takeSign_exponent]
    dsimp only
    rw [htake]
    dsimp only
    rw [List.isEmpty_eq_false_iff.mpr hne]
    rfl

/-- Behind its sign, a decimal is read as the double that it names. -/
theorem readUnsigned?_unsigned (h : w.WellFormed) (hx : Names w.negative w.magnitude x) :
    readUnsigned? w.negative w.unsigned = some x := by
  have hwhole := takeDigits_append h.isDigit_whole (head?_fractionText (w := w))
  have hne : w.whole.isEmpty = false := List.isEmpty_eq_false_iff.mpr h.whole_ne_nil
  have hnearest := nearest_eq hx
  have hexponent := readExponent?_exponentText h
  unfold readUnsigned?
  rw [unsigned, hwhole]
  dsimp only
  rw [fractionText]
  -- without a fraction the exponent, or the end, comes right behind the whole digits
  by_cases hfraction : w.fraction = []
  · rw [hfraction] at hnearest
    rw [if_pos hfraction, List.nil_append]
    rcases exponentText_cases w with hnone | ⟨s, hsome⟩
    · rw [hnone] at hexponent ⊢
      simp only [hne, Bool.false_and, Bool.false_eq_true, if_false, hexponent, Option.map_some,
        hnearest]
    · rw [hsome] at hexponent ⊢
      rw [hne, Bool.false_and, if_neg Bool.false_ne_true]
      exact (congrArg (Option.map _) hexponent).trans (congrArg some hnearest)
  · have htake := takeDigits_append h.isDigit_fraction (head?_exponentText (w := w))
    rw [if_neg hfraction, List.cons_append]
    simp only [htake, hne, Bool.false_and, Bool.false_eq_true, if_false, hexponent, Option.map_some,
      hnearest]

end Written

/-- A digit is no letter. -/
theorem toLower_of_isDigit {c : Char} (h : c.isDigit = true) : c.toLower = c := by
  rw [Char.isDigit, Bool.and_eq_true, decide_eq_true_iff, decide_eq_true_iff] at h
  unfold Char.toLower
  refine dif_neg ?_
  intro hletter
  -- a digit in the range of letters would put the letters before the digits
  have hle : 'A'.val ≤ '9'.val := UInt32.le_trans hletter.1 h.2
  exact absurd hle (by decide)

/-- A decimal that spells a double is read as it. -/
theorem readDouble?_of_spells {text : String} (h : Spells text x) : readDouble? text = some x := by
  obtain ⟨w, hw, htext, hx⟩ := h
  obtain ⟨c, s, hcons, hc⟩ := Written.exists_cons_unsigned hw
  have hread := Written.readUnsigned?_unsigned hw hx
  unfold readDouble?
  rw [htext, Written.takeSign_text hw]
  dsimp only
  -- the names of infinities and of what is no number start with letters, and the text with a digit
  split
  case h_4 => exact hread
  all_goals
    next hword =>
      have hfirst := congrArg (fun text : String => text.toList.head?) hword
      rw [String.toList_ofList, hcons, List.map_cons, List.head?_cons] at hfirst
      rw [toLower_of_isDigit hc] at hfirst
      cases hfirst
      exact absurd hc (by decide)

/-! ## Characters -/

/-- The characters that decimals are written with. -/
def isDecimalChar (c : Char) : Bool := c.isDigit || c = '-' || c = '+' || c = '.' || c = 'e'

/-- Decimals are written with digits. -/
theorem isDecimalChar_of_isDigit {c : Char} (h : c.isDigit = true) : isDecimalChar c = true := by
  simp only [isDecimalChar, h, Bool.true_or]

/-- A written decimal has no other characters. -/
theorem Written.isDecimalChar_of_mem (h : w.WellFormed) :
    ∀ c ∈ w.text, isDecimalChar c = true := by
  have hfraction : ∀ c ∈ w.fractionText, isDecimalChar c = true := by
    unfold fractionText
    split
    · rintro c ⟨⟩
    · exact List.forall_mem_cons.mpr
        ⟨rfl, fun c hc => isDecimalChar_of_isDigit (h.isDigit_fraction c hc)⟩
  have hexponent : ∀ c ∈ w.exponentText, isDecimalChar c = true := by
    unfold exponentText
    cases hw : w.exponent with
    | none => rintro c ⟨⟩
    | some e =>
      refine List.forall_mem_cons.mpr ⟨rfl, List.forall_mem_cons.mpr
        ⟨?_, fun c hc => isDecimalChar_of_isDigit (h.isDigit_exponent e hw c hc)⟩⟩
      cases e.1 <;> rfl
  have hunsigned : ∀ c ∈ w.unsigned, isDecimalChar c = true := by
    intro c hc
    rcases List.mem_append.mp hc with hc | hc
    · exact isDecimalChar_of_isDigit (h.isDigit_whole c hc)
    · exact (List.mem_append.mp hc).elim (hfraction c) (hexponent c)
  unfold text
  split
  · exact List.forall_mem_cons.mpr ⟨rfl, hunsigned⟩
  · exact hunsigned

/-- A text that spells a double has no other characters. -/
theorem isDecimalChar_of_spells {text : String} (h : Spells text x) :
    ∀ c ∈ text.toList, isDecimalChar c = true := by
  obtain ⟨w, hw, htext, -⟩ := h
  rw [htext]
  exact w.isDecimalChar_of_mem hw

/-- A character that decimals are not written with is in none of them. -/
theorem not_mem_of_spells {text : String} {c : Char} (h : Spells text x)
    (hc : isDecimalChar c = false) : c ∉ text.toList := by
  intro hmem
  rw [isDecimalChar_of_spells h c hmem] at hc
  cases hc

/-! ## Writing -/

theorem ofDigits_eq (s : List Char) : ofDigits s = Nat.ofDigitChars 10 s 0 := rfl

/-- Digits behind others move these up by a place each. -/
theorem ofDigits_append (a b : List Char) :
    ofDigits (a ++ b) = 10 ^ b.length * ofDigits a + ofDigits b := by
  rw [ofDigits_eq, Nat.ofDigitChars_append, Nat.ofDigitChars_eq_ofDigitChars_zero]
  rfl

/-- The digits of a number stand for it. -/
theorem ofDigits_toDigits (n : Nat) : ofDigits (Nat.toDigits 10 n) = n :=
  Nat.ofDigitChars_ten_toDigits

/-- Zeros stand for zero. -/
theorem ofDigits_zeroes (n : Nat) : ofDigits (List.replicate n '0') = 0 := by
  rw [ofDigits_eq, Nat.ofDigitChars_replicate_zero, mul_zero]

theorem isDigit_of_mem_toDigits {n : Nat} : ∀ c ∈ Nat.toDigits 10 n, c.isDigit = true :=
  fun _ hc => Nat.isDigit_of_mem_toDigits (by decide) (by decide) hc

theorem isDigit_of_mem_zeroes {n : Nat} : ∀ c ∈ List.replicate n '0', c.isDigit = true := by
  intro c hc
  rw [List.eq_of_mem_replicate hc]
  decide

/-- The digits of a number other than zero do not start with a zero. -/
theorem head?_toDigits {n : Nat} (hn : n ≠ 0) : (Nat.toDigits 10 n).head? ≠ some '0' := by
  induction n using Nat.strong_induction_on with
  | _ n ih =>
    -- a number below ten is its only digit; another one starts as its tenth part does
    rcases Nat.lt_or_ge n 10 with hlt | hge
    · rw [Nat.toDigits_of_lt_base hlt]
      interval_cases n <;> first | exact absurd rfl hn | decide
    · have hhead := ih (n / 10) (by omega) (by omega)
      rw [Nat.toDigits_of_base_le (by decide) hge, List.head?_append]
      rcases hfirst : (Nat.toDigits 10 (n / 10)).head? with _ | c
      · exact absurd (List.head?_eq_none_iff.mp hfirst) Nat.toDigits_ne_nil
      · rw [hfirst] at hhead
        exact hhead

/-- The digits before the point start with a zero only if it stands alone. -/
def Written.StartsPlainly (w : Written) : Prop := w.whole.length = 1 ∨ w.whole.head? ≠ some '0'

/-- A written decimal has this text behind its sign and this magnitude, and it is marked as no whole
number if asked for. -/
structure Writes (w : Written) (text : List Char) (q : ℚ) (marked : Bool) : Prop where
  wellFormed : w.WellFormed
  startsPlainly : w.StartsPlainly
  unsigned_eq : w.unsigned = text
  magnitude_eq : w.magnitude = q
  marked : marked = true → w.fraction ≠ [] ∨ w.exponent ≠ none

section Forms

variable {whole fraction text : List Char} {negative marked : Bool} {n : Nat} {k : Int}

/-- Without an exponent, the point alone says what the digits count for. -/
theorem writes_point (shift : Nat)
    (htext : (whole ++ if fraction = [] then [] else '.' :: fraction) = text) (hne : whole ≠ [])
    (hwhole : ∀ c ∈ whole, c.isDigit = true) (hfraction : ∀ c ∈ fraction, c.isDigit = true)
    (hplain : whole.length = 1 ∨ whole.head? ≠ some '0')
    (hshift : (shift : Int) = k + fraction.length)
    (hvalue : ofDigits (whole ++ fraction) = n * 10 ^ shift)
    (hmarked : marked = true → fraction ≠ []) :
    Writes ⟨negative, whole, fraction, none⟩ text (n * 10 ^ k) marked where
  wellFormed := ⟨hne, hwhole, hfraction, by rintro e ⟨⟩, by rintro e ⟨⟩⟩
  startsPlainly := hplain
  unsigned_eq := by
    rw [Written.unsigned, Written.fractionText, Written.exponentText, List.append_nil]
    exact htext
  magnitude_eq := by
    have hexponent : k = shift + (0 - (fraction.length : Int)) := by omega
    rw [Written.magnitude, hvalue, hexponent, zpow_add₀ (by norm_num), zpow_natCast, ← mul_assoc]
    push_cast
    rfl
  marked := fun h => Or.inl (hmarked h)

/-- A decimal without an exponent that has the digits of a number other than zero, and the point
where the exponent says. -/
theorem exists_positional (negative wholePoint : Bool) (hn : n ≠ 0) (k : Int) :
    ∃ w : Written, w.negative = negative ∧ Writes w
      (positionalText (Nat.toDigits 10 n) ((Nat.toDigits 10 n).length + k) wholePoint) (n * 10 ^ k)
      wholePoint := by
  have hdigits := isDigit_of_mem_toDigits (n := n)
  have hlength : 0 < (Nat.toDigits 10 n).length := Nat.length_toDigits_pos
  have hhead := head?_toDigits hn
  have hvalue := ofDigits_toDigits n
  generalize Nat.toDigits 10 n = digits at *
  have hne : digits ≠ [] := List.length_pos_iff.mp hlength
  unfold positionalText
  split
  next hpoint =>
    -- zeros between the point and the digits
    generalize hm : (-((digits.length : Int) + k)).toNat = m
    have hfraction : List.replicate m '0' ++ digits ≠ [] :=
      List.append_ne_nil_of_right_ne_nil _ hne
    refine ⟨⟨negative, ['0'], List.replicate m '0' ++ digits, none⟩, rfl,
      writes_point 0 ?_ (List.cons_ne_nil _ _) (isDigit_of_mem_zeroes (n := 1)) ?_
        (Or.inl rfl) ?_ ?_
        fun _ => hfraction⟩
    · rw [if_neg hfraction]
      rfl
    · exact fun c hc => (List.mem_append.mp hc).elim (isDigit_of_mem_zeroes c) (hdigits c)
    · rw [List.length_append, List.length_replicate]
      omega
    · rw [List.singleton_append, ← List.cons_append, ← List.replicate_succ, ofDigits_append,
        ofDigits_zeroes, hvalue, mul_zero, zero_add, pow_zero, mul_one]
  next hpoint =>
    dsimp only
    split
    next hle =>
      -- zeros between the digits and the point
      generalize hm : (digits.length + k).toNat - digits.length = m
      have hwrites (z : Nat) (hz : wholePoint = true → List.replicate z '0' ≠ []) :
          Writes ⟨negative, digits ++ List.replicate m '0', List.replicate z '0', none⟩
            (digits ++ List.replicate m '0'
              ++ if List.replicate z '0' = [] then [] else '.' :: List.replicate z '0')
            (n * 10 ^ k) wholePoint := by
        refine writes_point (m + z) rfl (List.append_ne_nil_of_left_ne_nil hne _) ?_
          isDigit_of_mem_zeroes (Or.inr ?_) ?_ ?_ hz
        · exact fun c hc => (List.mem_append.mp hc).elim (hdigits c) (isDigit_of_mem_zeroes c)
        · rw [List.head?_append_of_ne_nil _ hne]
          exact hhead
        · rw [List.length_replicate]
          omega
        · rw [List.append_assoc, List.replicate_append_replicate, ofDigits_append, ofDigits_zeroes,
            hvalue, List.length_replicate, add_zero, mul_comm]
      cases wholePoint with
      | true => exact ⟨_, rfl, hwrites 1 fun _ => List.cons_ne_nil _ _⟩
      | false => exact ⟨_, rfl, hwrites 0 (by decide)⟩
    next hlt =>
      -- the point inside the digits
      generalize hm : (digits.length + k).toNat = m at *
      have hfraction : digits.drop m ≠ [] := by
        rw [ne_eq, List.drop_eq_nil_iff]
        exact hlt
      have hwhole : digits.take m ≠ [] := by
        rw [ne_eq, List.take_eq_nil_iff, not_or]
        exact ⟨by omega, hne⟩
      have hfront : ∀ c ∈ digits.take m, c.isDigit = true :=
        fun c hc => hdigits c (List.mem_of_mem_take hc)
      have hback : ∀ c ∈ digits.drop m, c.isDigit = true :=
        fun c hc => hdigits c (List.mem_of_mem_drop hc)
      refine ⟨⟨negative, digits.take m, digits.drop m, none⟩, rfl,
        writes_point 0 ?_ hwhole hfront hback (Or.inr ?_) ?_ ?_ fun _ => hfraction⟩
      · rw [if_neg hfraction]
      · rw [List.head?_take, if_neg (by omega)]
        exact hhead
      · rw [List.length_drop]
        omega
      · rw [List.take_append_drop, hvalue, pow_zero, mul_one]

/-- A decimal in scientific form that has the digits of a number other than zero: one before the
point, the others behind it. -/
theorem exists_exponent (negative : Bool) (hn : n ≠ 0) (k : Int) :
    ∃ w : Written, w.negative = negative ∧ Writes w
      (exponentText (Nat.toDigits 10 n) ((Nat.toDigits 10 n).length + k - 1)) (n * 10 ^ k)
        true := by
  have hdigits := isDigit_of_mem_toDigits (n := n)
  have hlength : 0 < (Nat.toDigits 10 n).length := Nat.length_toDigits_pos
  have hhead := head?_toDigits hn
  have hvalue := ofDigits_toDigits n
  generalize Nat.toDigits 10 n = digits at *
  generalize hp : (digits.length : Int) + k - 1 = p
  have hne : digits.take 1 ≠ [] := by
    rw [ne_eq, List.take_eq_nil_iff, ← List.length_eq_zero_iff]
    omega
  have hexponent : (if decide (p < 0) then -(ofDigits (Nat.toDigits 10 p.natAbs) : Int)
      else ofDigits (Nat.toDigits 10 p.natAbs)) = p := by
    rw [ofDigits_toDigits]
    by_cases h : p < 0
    · rw [if_pos (decide_eq_true h)]
      omega
    · rw [if_neg (mt of_decide_eq_true h)]
      omega
  -- the first digit is the whole part, and the exponent counts the places behind it
  refine ⟨⟨negative, digits.take 1, digits.drop 1,
    some (decide (p < 0), Nat.toDigits 10 p.natAbs)⟩, rfl, ?_, ?_, ?_, ?_, ?_⟩
  · refine ⟨hne, fun c hc => hdigits c (List.mem_of_mem_take hc),
      fun c hc => hdigits c (List.mem_of_mem_drop hc), ?_, ?_⟩
    · rintro e ⟨⟩
      exact Nat.toDigits_ne_nil
    · rintro e ⟨⟩
      exact isDigit_of_mem_toDigits
  · exact Or.inl (by rw [List.length_take]; omega)
  · unfold Written.unsigned Written.fractionText Written.exponentText exponentText
    simp only [List.isEmpty_iff, decide_eq_true_iff, List.append_assoc]
  · rw [Written.magnitude, List.take_append_drop, hvalue]
    congr 2
    change (if decide (p < 0) then _ else _) - ((digits.drop 1).length : Int) = k
    rw [hexponent, List.length_drop]
    omega
  · exact fun _ => Or.inr (by rintro ⟨⟩)

end Forms

/-- The text of a magnitude is a written decimal with that magnitude. -/
theorem exists_magnitudeText (layout : Layout) (negative : Bool) (d : Magnitude) :
    ∃ w : Written, w.negative = negative ∧
      Writes w (layout.magnitudeText d) d.toRat layout.wholePoint := by
  unfold Layout.magnitudeText Magnitude.toRat
  dsimp only
  -- zero has no digits of its own and is written as `0`, with `.0` where it is marked
  by_cases hzero : d.coefficient = 0
  · rw [if_pos hzero, hzero]
    have hsame : ((0 : Nat) : ℚ) * 10 ^ d.exponent = (0 : Nat) * 10 ^ (0 : Int) := by
      rw [Nat.cast_zero, zero_mul, zero_mul]
    have hwrites (z : Nat) (hz : layout.wholePoint = true → List.replicate z '0' ≠ []) :
        Writes ⟨negative, ['0'], List.replicate z '0', none⟩
          (['0'] ++ if List.replicate z '0' = [] then [] else '.' :: List.replicate z '0')
          ((0 : Nat) * 10 ^ (0 : Int)) layout.wholePoint := by
      refine writes_point z rfl (List.cons_ne_nil _ _) (isDigit_of_mem_zeroes (n := 1))
        isDigit_of_mem_zeroes (Or.inl rfl) ?_ ?_ hz
      · rw [List.length_replicate, zero_add]
      · rw [List.singleton_append, ← List.replicate_succ, ofDigits_zeroes, zero_mul]
    rw [hsame]
    generalize layout.wholePoint = wholePoint at *
    cases wholePoint with
    | true => exact ⟨_, rfl, hwrites 1 fun _ => List.cons_ne_nil _ _⟩
    | false => exact ⟨_, rfl, hwrites 0 (by decide)⟩
  · rw [if_neg hzero]
    split
    · exact exists_positional negative layout.wholePoint hzero d.exponent
    · obtain ⟨w, hnegative, hwrites⟩ := exists_exponent negative hzero d.exponent
      exact ⟨w, hnegative, hwrites.wellFormed, hwrites.startsPlainly, hwrites.unsigned_eq,
        hwrites.magnitude_eq, fun _ => hwrites.marked rfl⟩

/-- A finite double is a number. -/
theorem isNaN_eq_false (hx : x.isFinite = true) : x.isNaN = false := by
  unfold Float.isFinite Float.Model.isFinite at hx
  unfold Float.isNaN Float.Model.isNaN
  cases h : x.toModel.unpack <;> rw [h] at hx <;> first | rfl | cases hx

/-- A finite double is no infinity. -/
theorem isInf_eq_false (hx : x.isFinite = true) : x.isInf = false := by
  unfold Float.isFinite Float.Model.isFinite at hx
  unfold Float.isInf Float.Model.isInf
  cases h : x.toModel.unpack <;> rw [h] at hx <;> first | rfl | cases hx

/-- What is written for a double spells it. -/
theorem exists_written (layout : Layout) (hx : x.isFinite = true) :
    ∃ w : Written, w.WellFormed ∧ w.StartsPlainly ∧ (layout.write x).toList = w.text ∧
      Names w.negative w.magnitude x ∧
      (layout.wholePoint = true → w.fraction ≠ [] ∨ w.exponent ≠ none) := by
  obtain ⟨w, hnegative, hw⟩ :=
    exists_magnitudeText layout (isNegative x) (shortest layout.tie x)
  refine ⟨w, hw.wellFormed, hw.startsPlainly, ?_, ?_, hw.marked⟩
  · rw [Layout.write, isNaN_eq_false hx, isInf_eq_false hx, if_neg Bool.false_ne_true,
      if_neg Bool.false_ne_true]
    dsimp only
    rw [String.toList_ofList, Written.text, hnegative, hw.unsigned_eq]
  · rw [hnegative, hw.magnitude_eq]
    exact names_shortest layout.tie hx

/-- Every layout spells the double that it writes. -/
theorem spells_write (layout : Layout) (hx : x.isFinite = true) : Spells (layout.write x) x := by
  obtain ⟨w, hw, _, htext, hnames, _⟩ := exists_written layout hx
  exact ⟨w, hw, htext, hnames⟩

end ObjectStore.Decimal
