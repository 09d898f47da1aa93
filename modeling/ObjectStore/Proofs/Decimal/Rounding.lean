import ObjectStore.Proofs.Decimal.Double

/-!
# Rounding to the nearest double

The arithmetic of doubles computes a mantissa with two more bits, shifts it to the exponent that a
double may have, and rounds. A mantissa with its two bits stands for a number (`Represents`), and
shifting keeps what it stands for, so rounding gives the double that the number rounds to
(`roundWithAccuracy_eq`): the numbers that round to a double are those within half a step of it, the
ends counted in if its mantissa is even (`RoundsTo`).
-/

namespace ObjectStore.Decimal

open Float.Model Float.Model.UnpackedFloat

/-! ## Mantissas with a round bit and a sticky bit -/

/-- A mantissa with two more bits stands for a number: the round bit tells whether a half or more is
left of the number beside the mantissa, and the sticky bit whether more is left than the round bit
says. -/
structure Represents (em : ExtendedMantissa) (y : ℚ) : Prop where
  le : em.mantissa ≤ y
  lt : y < em.mantissa + 1
  round_iff : em.roundBit = true ↔ em.mantissa + 1 / 2 ≤ y
  sticky_iff : em.stickyBit = true ↔ y ≠ em.mantissa ∧ y ≠ em.mantissa + 1 / 2

variable {em : ExtendedMantissa} {y w : ℚ} {m n d : Nat} {e : Int}

theorem represents_exact (n : Nat) : Represents (.ofMantissaAndAccuracy n .exact) n := by
  constructor <;> norm_num [ExtendedMantissa.ofMantissaAndAccuracy]

theorem represents_add {k : Nat} {round sticky : Bool} {rest : ℚ} (hnonneg : 0 ≤ rest)
    (hlt : rest < 1) (hround : round = true ↔ 1 / 2 ≤ rest)
    (hsticky : sticky = true ↔ rest ≠ 0 ∧ rest ≠ 1 / 2) :
    Represents ⟨k, round, sticky⟩ (k + rest) where
  le := le_add_of_nonneg_right hnonneg
  lt := by gcongr
  round_iff := hround.trans (add_le_add_iff_left _).symm
  sticky_iff := by rw [hsticky, ne_eq, ne_eq, ne_eq, ne_eq, add_eq_left, add_right_inj]

/-- A quotient, with the accuracy of its remainder, stands for the fraction. -/
theorem represents_div (hd : d ≠ 0) :
    Represents (.ofMantissaAndAccuracy (n / d) (accuracyOfFraction (n % d) d)) (n / d : ℚ) := by
  have hd' : (0 : ℚ) < d := by positivity
  have hlt : ((n % d : Nat) : ℚ) < d := by exact_mod_cast Nat.mod_lt n (Nat.pos_of_ne_zero hd)
  have hsplit : (n / d : ℚ) = (n / d : Nat) + (n % d : Nat) / d := by
    rw [div_eq_iff hd'.ne', add_mul, div_mul_cancel₀ _ hd'.ne']
    exact_mod_cast (Nat.div_add_mod' n d).symm
  have hrest : ((n % d : Nat) : ℚ) / d < 1 := (div_lt_one hd').mpr hlt
  rw [hsplit]
  generalize n % d = r at *
  by_cases hr : r = 0
  · rw [hr, Nat.cast_zero, zero_div, add_zero]
    exact represents_exact _
  have hpos : 0 < (r : ℚ) / d := by positivity
  have hhalf : (r : ℚ) / d < 1 / 2 ↔ 2 * r < d := by
    rw [div_lt_div_iff₀ hd' two_pos, mul_comm, one_mul]
    norm_cast
  have htie : (r : ℚ) / d = 1 / 2 ↔ 2 * r = d := by
    rw [div_eq_div_iff hd'.ne' two_ne_zero, mul_comm, one_mul]
    norm_cast
  rw [accuracyOfFraction, if_neg hr]
  rcases hcompare : compare (2 * r) d with _ | _ | _
  · have hbelow := hhalf.mpr (Nat.compare_eq_lt.mp hcompare)
    exact represents_add hpos.le hrest (iff_of_false Bool.false_ne_true hbelow.not_ge)
      (iff_of_true rfl ⟨hpos.ne', hbelow.ne⟩)
  · have htie := htie.mpr (Nat.compare_eq_eq.mp hcompare)
    exact represents_add hpos.le hrest (iff_of_true rfl htie.ge)
      (iff_of_false Bool.false_ne_true fun hne => hne.2 htie)
  · have habove := Nat.compare_eq_gt.mp hcompare
    have hne := mt htie.mp habove.ne'
    have hge := not_lt.mp (mt hhalf.mp habove.not_gt)
    exact represents_add hpos.le hrest (iff_of_true rfl hge) (iff_of_true rfl ⟨hpos.ne', hne⟩)

theorem Represents.or_iff (h : Represents em y) :
    (em.roundBit || em.stickyBit) = true ↔ y ≠ em.mantissa := by
  rw [Bool.or_eq_true, h.round_iff, h.sticky_iff]
  constructor
  · rintro (hround | ⟨hne, _⟩)
    · exact fun heq => by linarith
    · exact hne
  · intro hne
    by_cases htie : y = em.mantissa + 1 / 2
    · exact Or.inl htie.ge
    · exact Or.inr ⟨hne, htie⟩

/-- Shifted to the right by one bit, a mantissa stands for half the number. -/
theorem Represents.shiftRightOne (h : Represents em y) : Represents em.shiftRightOne (y / 2) := by
  have hor := h.or_iff
  have hle := h.le
  have hlt := h.lt
  unfold ExtendedMantissa.shiftRightOne
  obtain ⟨k, hk⟩ := Nat.even_or_odd' em.mantissa
  rcases hk with hk | hk <;> rw [hk] at hor hle hlt ⊢ <;> push_cast at hor hle hlt
  · have hhalf : 2 * k / 2 = k := by omega
    rw [hhalf, Nat.mul_mod_right]
    refine ⟨by dsimp only; linarith, by dsimp only; linarith, ?_, ?_⟩
    · exact iff_of_false Bool.false_ne_true (by dsimp only; linarith)
    · rw [hor]
      constructor
      · intro hne
        exact ⟨fun heq => hne (by linarith), fun heq => by linarith⟩
      · intro hne heq
        exact hne.1 (by linarith)
  · have hhalf : (2 * k + 1) / 2 = k := by omega
    have hbit : (2 * k + 1) % 2 = 1 := by omega
    rw [hhalf, hbit]
    refine ⟨by dsimp only; linarith, by dsimp only; linarith, ?_, ?_⟩
    · exact iff_of_true rfl (by dsimp only; linarith)
    · rw [hor]
      constructor
      · intro hne
        exact ⟨fun heq => by linarith, fun heq => hne (by linarith)⟩
      · intro hne heq
        exact hne.2 (by linarith)

/-- Shifted to the right, a mantissa stands for the number divided as often by two. -/
theorem Represents.shiftRight (h : Represents em y) (k : Nat) :
    Represents (em >>> k) (y / 2 ^ k) := by
  induction k with
  | zero =>
    rw [pow_zero, div_one]
    exact h
  | succ k ih =>
    rw [pow_succ, ← div_div]
    exact ih.shiftRightOne

/-- A mantissa is rounded to the number nearest to what it stands for, and to the even one of two
that are as near. -/
theorem Represents.roundedMantissa_eq (h : Represents em y) (hlow : (m : ℚ) - 1 / 2 ≤ y)
    (hhigh : y ≤ m + 1 / 2) (hodd : m % 2 = 1 → (m : ℚ) - 1 / 2 < y ∧ y < m + 1 / 2) :
    em.roundedMantissa = m := by
  obtain ⟨k, round, sticky⟩ := em
  obtain ⟨hle, hlt, hround, hsticky⟩ := h
  dsimp only at hle hlt hround hsticky
  have hnear : m = k ∨ m = k + 1 := by
    have hge : (k : ℚ) < m + 1 := by linarith
    have hle' : (m : ℚ) < k + 2 := by linarith
    norm_cast at hge hle'
    omega
  unfold ExtendedMantissa.roundedMantissa ExtendedMantissa.accuracy
  cases round with
  | false =>
    have hbelow : y < k + 1 / 2 := not_le.mp (mt hround.mpr Bool.false_ne_true)
    have hm : m = k := by
      refine hnear.resolve_right ?_
      rintro rfl
      push_cast at hlow
      linarith
    cases sticky <;> exact hm.symm
  | true =>
    have habove := hround.mp rfl
    cases sticky with
    | true =>
      have hne := (hsticky.mp rfl).2
      have hm : m = k + 1 := by
        refine hnear.resolve_left ?_
        rintro rfl
        exact hne (le_antisymm hhigh habove)
      exact hm.symm
    | false =>
      -- a tie, so only the even one of the two neighbours is left
      have htie : y = k + 1 / 2 := by
        by_contra hne
        exact Bool.false_ne_true (hsticky.mpr ⟨by intro heq; linarith, hne⟩)
      have heven : m % 2 = 0 := by
        by_contra hne
        have := hodd (by omega)
        rcases hnear with rfl | rfl <;> push_cast at this <;> linarith
      change k + k % 2 = m
      omega

/-! ## Rounding to a double -/

/-- The quarters of a step from a double down to the least number that rounds to it. -/
def quartersBelow (m : Nat) (e : Int) : Nat := if m = 2 ^ 52 ∧ -1074 < e then 1 else 2

/-- The numbers that round to a double of which the mantissa and the exponent are known: at most
half a step away, or a quarter downwards where the steps get smaller, and the ends only if the
mantissa is even. -/
structure RoundsTo (m : Nat) (e : Int) (w : ℚ) : Prop where
  low_le : (4 * m - quartersBelow m e) * 2 ^ (e - 2) ≤ w
  le_high : w ≤ (4 * m + 2) * 2 ^ (e - 2)
  odd : m % 2 = 1 → (4 * m - quartersBelow m e) * 2 ^ (e - 2) < w ∧ w < (4 * m + 2) * 2 ^ (e - 2)

variable {n : Nat} {i : Int} {accuracy : Accuracy} {sign : Sign}

/-- Shifted to an exponent that is not smaller, a mantissa stands for the same number. -/
theorem represents_shiftToExponent {t : Int} (h : i ≤ t)
    (hn : Represents (.ofMantissaAndAccuracy n accuracy) (w / 2 ^ i)) :
    (shiftToExponent n i accuracy t).2 = t
      ∧ Represents (shiftToExponent n i accuracy t).1 (w / 2 ^ t) := by
  have ht : i + ((t - i).toNat : Int) = t := by omega
  refine ⟨ht, ?_⟩
  have hshift := hn.shiftRight (t - i).toNat
  rw [div_div, ← zpow_natCast, ← zpow_add₀ two_ne_zero, ht] at hshift
  exact hshift

/-- The exponent that a mantissa is shifted to. -/
theorem targetExponent_eq (n : Nat) (i : Int) :
    Format.binary64.targetExponent (totalExponent n i) = max (n.log2 + i - 52) (-1074) := by
  change max ((n.log2 : Int) + 1 + i - 53) (-1074) = _
  omega

/-- What fits the bounds is not shifted. -/
theorem shiftToTargetExponent_of_fits (h : Fits m e) (hm : m ≠ 0) :
    shiftToTargetExponent Format.binary64 m e .exact = (⟨m, false, false⟩, e) := by
  have hlog : m.log2 < 53 := (Nat.log2_lt hm).mpr h.mantissa_lt
  have htarget : Format.binary64.targetExponent (totalExponent m e) = e := by
    rw [targetExponent_eq]
    rcases h.full with hfull | rfl
    · have := (Nat.le_log2 hm).mpr hfull
      have := h.least_le
      omega
    · omega
  unfold shiftToTargetExponent shiftToExponent
  dsimp only
  rw [htarget, Int.sub_self]
  exact Prod.ext rfl (add_zero e)

/-- A mantissa of one bit too much is shifted by one bit. -/
theorem shiftToTargetExponent_overflow (h : -1074 < e) :
    shiftToTargetExponent Format.binary64 (2 ^ 53) (e - 1) .exact
      = (⟨2 ^ 52, false, false⟩, e) := by
  have htarget : Format.binary64.targetExponent (totalExponent (2 ^ 53) (e - 1)) = e := by
    rw [targetExponent_eq, Nat.log2_two_pow]
    omega
  have hone : (e - (e - 1)).toNat = 1 := by omega
  unfold shiftToTargetExponent shiftToExponent
  dsimp only
  rw [htarget, hone]
  exact Prod.ext rfl (by change e - 1 + 1 = e; omega)

theorem lt_of_two_zpow_lt {a b : Int} (h : (2 : ℚ) ^ a < 2 ^ b) : a < b :=
  (zpow_lt_zpow_iff_right₀ one_lt_two).mp h

theorem two_zpow_mul (a b : Int) : (2 : ℚ) ^ a * 2 ^ b = 2 ^ (a + b) :=
  (zpow_add₀ two_ne_zero a b).symm

/-- What rounds to a double, in steps of the double. -/
theorem RoundsTo.steps (hw : RoundsTo m e w) :
    m - quartersBelow m e / 4 ≤ w / 2 ^ e ∧ w / 2 ^ e ≤ m + 1 / 2 ∧
      (m % 2 = 1 → m - quartersBelow m e / 4 < w / 2 ^ e ∧ w / 2 ^ e < m + 1 / 2) := by
  have hstep : (0 : ℚ) < 2 ^ e := by positivity
  have hquarter : (2 : ℚ) ^ (e - 2) = 2 ^ e / 4 := by
    rw [zpow_sub₀ two_ne_zero]
    norm_num
  have hlow : (4 * m - quartersBelow m e) * 2 ^ (e - 2)
      = (m - quartersBelow m e / 4 : ℚ) * 2 ^ e := by
    rw [hquarter]
    ring
  have hhigh : (4 * m + 2) * 2 ^ (e - 2) = (m + 1 / 2 : ℚ) * 2 ^ e := by
    rw [hquarter]
    ring
  obtain ⟨hlow_le, hle_high, hodd⟩ := hw
  rw [hlow] at hlow_le hodd
  rw [hhigh] at hle_high hodd
  exact ⟨(le_div_iff₀ hstep).mpr hlow_le, (div_le_iff₀ hstep).mpr hle_high,
    fun h => ⟨(lt_div_iff₀ hstep).mpr (hodd h).1, (div_lt_iff₀ hstep).mpr (hodd h).2⟩⟩

/-- What rounds to a double is less than the power of two after its 53 bits. -/
theorem RoundsTo.lt (h : Fits m e) (hw : RoundsTo m e w) : w < 2 ^ (e + 53) := by
  have hm : (m : ℚ) + 1 ≤ 2 ^ 53 := by exact_mod_cast h.mantissa_lt
  calc w ≤ (4 * m + 2) * 2 ^ (e - 2) := hw.le_high
    _ < 2 ^ (55 : Int) * 2 ^ (e - 2) := by gcongr; norm_num at hm ⊢; linarith
    _ = 2 ^ (e + 53) := by rw [two_zpow_mul]; congr 1; omega

/-- What rounds to a double with all of its bits is not less than half the power of two of the first
one, nor than that power if the double is greater. -/
theorem RoundsTo.ge (hw : RoundsTo m e w) (hm : 2 ^ 52 ≤ m) :
    2 ^ (e + 51) ≤ w ∧ (m ≠ 2 ^ 52 → 2 ^ (e + 52) ≤ w) := by
  have hm' : (4503599627370496 : ℚ) ≤ m := by exact_mod_cast hm
  have hquarters : (quartersBelow m e : ℚ) ≤ 2 := by
    unfold quartersBelow
    split <;> norm_num
  constructor
  · calc (2 : ℚ) ^ (e + 51) = 2 ^ (53 : Int) * 2 ^ (e - 2) := by rw [two_zpow_mul]; congr 1; omega
      _ ≤ (4 * m - quartersBelow m e) * 2 ^ (e - 2) := by gcongr; norm_num; linarith
      _ ≤ w := hw.low_le
  · intro hne
    have hgt : (4503599627370497 : ℚ) ≤ m := by exact_mod_cast lt_of_le_of_ne hm (Ne.symm hne)
    calc (2 : ℚ) ^ (e + 52) = 2 ^ (54 : Int) * 2 ^ (e - 2) := by rw [two_zpow_mul]; congr 1; omega
      _ ≤ (4 * m - quartersBelow m e) * 2 ^ (e - 2) := by gcongr; norm_num; linarith
      _ ≤ w := hw.low_le

/-- The exponent that a number is shifted to is that of the double that it rounds to, except that it
is one less for numbers that round up to a power of two. -/
theorem target_cases (h : Fits m e) (hi : i ≤ Format.binary64.targetExponent (totalExponent n i))
    (hn : Represents (.ofMantissaAndAccuracy n accuracy) (w / 2 ^ i)) (hw : RoundsTo m e w) :
    Format.binary64.targetExponent (totalExponent n i) = e ∨
      Format.binary64.targetExponent (totalExponent n i) = e - 1 ∧ m = 2 ^ 52 ∧ -1074 < e
        ∧ w < 2 ^ (e + 52) := by
  have hmantissa : (ExtendedMantissa.ofMantissaAndAccuracy n accuracy).mantissa = n := by
    rcases accuracy with _ | (_ | _ | _) <;> rfl
  have hle := hn.le
  have hlt := hn.lt
  rw [hmantissa] at hle hlt
  rw [le_div_iff₀ (by positivity)] at hle
  rw [div_lt_iff₀ (by positivity)] at hlt
  -- the number lies between the power of two of its first bit and the next one
  have hbelow : w < 2 ^ (n.log2 + i + 1) := by
    have hnext : (n : ℚ) + 1 ≤ 2 ^ (n.log2 + 1) := by exact_mod_cast Nat.lt_log2_self
    calc w < (n + 1) * 2 ^ i := hlt
      _ ≤ 2 ^ (n.log2 + 1) * 2 ^ i := by gcongr
      _ = 2 ^ (n.log2 + i + 1) := by rw [← zpow_natCast, two_zpow_mul]; congr 1; push_cast; omega
  have habove : n ≠ 0 → 2 ^ (n.log2 + i) ≤ w := by
    intro hn0
    have hfirst : (2 : ℚ) ^ n.log2 ≤ n := by exact_mod_cast Nat.log2_self_le hn0
    calc (2 : ℚ) ^ (n.log2 + i) = 2 ^ n.log2 * 2 ^ i := by rw [← zpow_natCast, two_zpow_mul]
      _ ≤ n * 2 ^ i := by gcongr
      _ ≤ w := hle
  rw [targetExponent_eq] at hi ⊢
  have hleast := h.least_le
  have hupper : max (n.log2 + i - 52) (-1074) ≤ e := by
    by_cases hn0 : n = 0
    · subst hn0
      rw [Nat.log2_zero] at hi ⊢
      omega
    · have := lt_of_two_zpow_lt ((habove hn0).trans_lt (hw.lt h))
      omega
  by_cases hsub : e = -1074
  · omega
  have hfull := h.full.resolve_right hsub
  have hlower := lt_of_two_zpow_lt ((hw.ge hfull).1.trans_lt hbelow)
  by_cases hpower : m = 2 ^ 52
  · by_cases heq : max ((n.log2 : Int) + i - 52) (-1074) = e
    · exact Or.inl heq
    · refine Or.inr ⟨by omega, hpower, by omega, hbelow.trans_le ?_⟩
      exact zpow_le_zpow_right₀ one_le_two (by omega)
  · have := lt_of_two_zpow_lt (((hw.ge hfull).2 hpower).trans_lt hbelow)
    omega

/-- A number is rounded to the double that it rounds to. -/
theorem roundWithAccuracy_eq (h : Fits m e) (hm : m ≠ 0)
    (hi : i ≤ Format.binary64.targetExponent (totalExponent n i))
    (hn : Represents (.ofMantissaAndAccuracy n accuracy) (w / 2 ^ i)) (hw : RoundsTo m e w) :
    roundWithAccuracy Format.binary64 sign n i accuracy = unpacked sign m e := by
  obtain ⟨ht, hrep⟩ := represents_shiftToExponent hi hn
  have hfirst : shiftToTargetExponent Format.binary64 n i accuracy = shiftToExponent n i accuracy
    (Format.binary64.targetExponent (totalExponent n i)) := rfl
  have htarget := target_cases h hi hn hw
  unfold roundWithAccuracy
  rw [hfirst]
  generalize shiftToExponent n i accuracy _ = shifted at *
  obtain ⟨em, t⟩ := shifted
  dsimp only at ht hrep ⊢
  obtain ⟨hlow, hhigh, hodd⟩ := hw.steps
  rcases htarget with heq | ⟨heq, hpower, hleast, hlt⟩ <;> rw [heq] at hrep
  · have hquarters : (m : ℚ) - 1 / 2 ≤ m - quartersBelow m e / 4 := by
      unfold quartersBelow
      split <;> push_cast <;> linarith
    have hrounded : em.roundedMantissa = m :=
      hrep.roundedMantissa_eq (hquarters.trans hlow) hhigh
        fun h => ⟨hquarters.trans_lt (hodd h).1, (hodd h).2⟩
    rw [hrounded, ht, heq, shiftToTargetExponent_of_fits h hm]
    rfl
  · -- twice as many steps, of half the size
    have hsteps : w / 2 ^ (e - 1) = 2 * (w / 2 ^ e) := by
      rw [zpow_sub₀ two_ne_zero, zpow_one]
      field_simp
    have hquarters : quartersBelow m e = 1 := if_pos ⟨hpower, hleast⟩
    have hless : w / 2 ^ e < 2 ^ 52 := by
      rw [div_lt_iff₀ (by positivity), ← zpow_natCast, two_zpow_mul, add_comm]
      exact hlt
    have hrounded : em.roundedMantissa = 2 ^ 53 := by
      rw [hsteps] at hrep
      rw [hquarters, hpower] at hlow
      push_cast at hlow
      refine hrep.roundedMantissa_eq ?_ ?_ fun h => absurd h (by decide) <;> push_cast <;> linarith
    rw [hrounded, ht, heq, shiftToTargetExponent_overflow hleast, hpower]
    rfl

end ObjectStore.Decimal
