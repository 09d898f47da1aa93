import ObjectStore.Proofs.Decimal.Nearest

/-!
# Shortest decimals name their doubles

Whatever grid the search for few digits ends on, its point lies in the interval of the double
(`Interval.contains_of_onGrid?`), and a search without a hit falls back on the double itself. The
interval, in units of a power of ten, is that of the numbers that round to the double
(`roundsTo_of_contains`). So the decimal that is found names the double (`names_shortest`); how
few digits it has does not matter for that.
-/

namespace ObjectStore.Decimal

/-- The number that a decimal magnitude is. -/
def Magnitude.toRat (d : Magnitude) : ℚ := d.coefficient * 10 ^ d.exponent

/-- Stripping keeps the number. -/
theorem Magnitude.toRat_strip (fuel : Nat) (d : Magnitude) : (d.strip fuel).toRat = d.toRat := by
  induction fuel generalizing d with
  | zero => rfl
  | succ fuel ih =>
    rw [strip]
    split
    next h =>
      have hten : (d.coefficient : ℚ) = (d.coefficient / 10 : Nat) * 10 := by
        exact_mod_cast (Nat.div_mul_cancel (Nat.dvd_of_mod_eq_zero h.2)).symm
      rw [ih, toRat, toRat, hten, zpow_add₀ (by norm_num), zpow_one]
      ring
    next => rfl

/-! ## The search -/

namespace Interval

variable {i : Interval} {tie : Tie} {step c : Nat}

/-- A point that is found on a grid lies in the interval. -/
theorem contains_of_onGrid? (h : i.onGrid? tie step = some c) : i.contains (c * step) = true := by
  unfold onGrid? at h
  dsimp only at h
  split at h
  case h_1 hdown hup =>
    have heither : c = i.value / step ∨ c = i.value / step + 1 := by
      split at h
      · exact Or.inl (Option.some.inj h).symm
      · split at h
        · exact Or.inr (Option.some.inj h).symm
        · cases tie with
          | up => exact Or.inr (Option.some.inj h).symm
          | even =>
            dsimp only at h
            split at h
            · exact Or.inl (Option.some.inj h).symm
            · exact Or.inr (Option.some.inj h).symm
    rcases heither with rfl | rfl
    · exact hdown
    · exact hup
  case h_2 hdown hup =>
    cases h
    exact hdown
  case h_3 hdown hup =>
    cases h
    exact hup
  case h_4 => cases h

theorem contains_of_lt {n : Nat} (hlow : i.low < n) (hhigh : n < i.high) : i.contains n = true := by
  unfold contains
  split
  · simp only [hlow.le, hhigh.le, decide_true, Bool.and_true]
  · simp only [hlow, hhigh, decide_true, Bool.and_true]

/-- What the search ends with lies in the interval if the value does. -/
theorem exists_contains_search (tie : Tie) (hvalue : i.contains i.value = true)
    (size fuel n : Nat) :
    ∃ k, i.contains k = true ∧ (i.search tie size fuel n).toRat = k * 10 ^ i.unit := by
  induction fuel generalizing n with
  | zero => exact ⟨i.value, hvalue, rfl⟩
  | succ fuel ih =>
    rw [search]
    split
    next c h =>
      refine ⟨c * Nat.pow 10 (size - n), contains_of_onGrid? h, ?_⟩
      rw [Magnitude.toRat, zpow_add₀ (by norm_num), zpow_natCast, Nat.cast_mul]
      push_cast [Nat.pow_eq]
      ring
    next => exact ih (n + 1)

end Interval

/-! ## The interval of a double -/

variable {x : Float} {k : Nat}

/-- A step of the interval is a quarter of a step of the double. -/
theorem factor_mul_unit (scale : Int) :
    (((if 0 ≤ scale then Nat.pow 2 scale.toNat else Nat.pow 5 (-scale).toNat : Nat) : ℚ)
      * 10 ^ (if 0 ≤ scale then 0 else scale)) = 2 ^ scale := by
  split
  next h =>
    obtain ⟨n, rfl⟩ := Int.eq_ofNat_of_zero_le h
    push_cast [Nat.pow_eq]
    simp
  next h =>
    obtain ⟨n, hn⟩ := Int.eq_ofNat_of_zero_le (a := -scale) (by omega)
    have hscale : scale = -(n : Int) := by omega
    have hten : (10 : ℚ) = 2 * 5 := by norm_num
    rw [hn, hscale, hten, mul_zpow, Int.toNat_natCast, Nat.pow_eq, Nat.cast_pow, Nat.cast_ofNat,
      zpow_neg 5, zpow_natCast 5, mul_left_comm, mul_inv_cancel₀ (by positivity), mul_one]

/-- The ends of the interval of a double. -/
theorem interval_ends (hne : (Dyadic.ofFloat x).mantissa ≠ 0) :
    ((Dyadic.ofFloat x).interval.low * 10 ^ (Dyadic.ofFloat x).interval.unit : ℚ)
        = (4 * (Dyadic.ofFloat x).mantissa
          - quartersBelow (Dyadic.ofFloat x).mantissa (Dyadic.ofFloat x).exponent)
          * 2 ^ ((Dyadic.ofFloat x).exponent - 2) ∧
      ((Dyadic.ofFloat x).interval.high * 10 ^ (Dyadic.ofFloat x).interval.unit : ℚ)
        = (4 * (Dyadic.ofFloat x).mantissa + 2) * 2 ^ ((Dyadic.ofFloat x).exponent - 2) := by
  have hbelow : (if (Dyadic.ofFloat x).boundary then 1 else 2)
      = quartersBelow (Dyadic.ofFloat x).mantissa (Dyadic.ofFloat x).exponent :=
    if_congr (Dyadic.boundary_iff x) rfl rfl
  have hle : quartersBelow (Dyadic.ofFloat x).mantissa (Dyadic.ofFloat x).exponent
      ≤ 4 * (Dyadic.ofFloat x).mantissa := by
    unfold quartersBelow
    split <;> omega
  have hunit := factor_mul_unit ((Dyadic.ofFloat x).exponent - 2)
  unfold Dyadic.interval
  dsimp only
  rw [hbelow, Nat.cast_mul, Nat.cast_mul, mul_assoc, mul_assoc, hunit, Nat.cast_sub hle]
  push_cast
  exact ⟨rfl, rfl⟩

/-- What lies in the interval of a double rounds to it. -/
theorem roundsTo_of_contains (hne : (Dyadic.ofFloat x).mantissa ≠ 0)
    (h : (Dyadic.ofFloat x).interval.contains k = true) :
    RoundsTo (Dyadic.ofFloat x).mantissa (Dyadic.ofFloat x).exponent
      (k * 10 ^ (Dyadic.ofFloat x).interval.unit) := by
  obtain ⟨hlow, hhigh⟩ := interval_ends hne
  have hunit : (0 : ℚ) < 10 ^ (Dyadic.ofFloat x).interval.unit := by positivity
  have hclosed : (Dyadic.ofFloat x).interval.closed
      = decide ((Dyadic.ofFloat x).mantissa % 2 = 0) :=
    rfl
  rw [Interval.contains, hclosed] at h
  split at h
  next heven =>
    rw [Bool.and_eq_true, decide_eq_true_iff, decide_eq_true_iff] at h
    have heven := of_decide_eq_true heven
    refine ⟨?_, ?_, fun hodd => by omega⟩
    · rw [← hlow]
      gcongr
      exact_mod_cast h.1
    · rw [← hhigh]
      gcongr
      exact_mod_cast h.2
  next =>
    rw [Bool.and_eq_true, decide_eq_true_iff, decide_eq_true_iff] at h
    have hlow_lt : ((Dyadic.ofFloat x).interval.low : ℚ) * 10 ^ (Dyadic.ofFloat x).interval.unit
        < k * 10 ^ (Dyadic.ofFloat x).interval.unit := by
      gcongr
      exact_mod_cast h.1
    have hlt_high : (k : ℚ) * 10 ^ (Dyadic.ofFloat x).interval.unit
        < (Dyadic.ofFloat x).interval.high * 10 ^ (Dyadic.ofFloat x).interval.unit := by
      gcongr
      exact_mod_cast h.2
    rw [hlow] at hlow_lt
    rw [hhigh] at hlt_high
    exact ⟨hlow_lt.le, hlt_high.le, fun _ => ⟨hlow_lt, hlt_high⟩⟩

theorem contains_value (hne : (Dyadic.ofFloat x).mantissa ≠ 0) :
    (Dyadic.ofFloat x).interval.contains (Dyadic.ofFloat x).interval.value = true := by
  have hfactor : 0 < (if 0 ≤ (Dyadic.ofFloat x).exponent - 2
      then Nat.pow 2 ((Dyadic.ofFloat x).exponent - 2).toNat
      else Nat.pow 5 (-((Dyadic.ofFloat x).exponent - 2)).toNat) := by
    split <;> exact Nat.pow_pos (by decide)
  have hbelow : 0 < (if (Dyadic.ofFloat x).boundary then 1 else 2) := by split <;> decide
  exact Interval.contains_of_lt (Nat.mul_lt_mul_of_pos_right (by omega) hfactor)
    (Nat.mul_lt_mul_of_pos_right (by omega) hfactor)

/-- The shortest decimal of a double names it. -/
theorem names_shortest (tie : Tie) (hx : x.isFinite = true) :
    Names (isNegative x) (shortest tie x).toRat x := by
  refine ⟨hx, rfl, ?_⟩
  unfold shortest
  dsimp only
  split
  next hzero => rw [Magnitude.toRat, Nat.cast_zero, zero_mul]
  next hne =>
    obtain ⟨k, hk, hrat⟩ := Interval.exists_contains_search tie (contains_value hne)
      (digitCount (Dyadic.ofFloat x).interval.value) 17 1
    rw [Magnitude.toRat_strip, hrat]
    exact roundsTo_of_contains hne hk

end ObjectStore.Decimal
