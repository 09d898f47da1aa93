import ObjectStore.Decimal.Reading
import ObjectStore.Proofs.Decimal.Rounding

/-!
# The double that a decimal names

A decimal names a double that it rounds to and that has its sign (`Names`), and `nearest` finds it
(`nearest_eq`), whichever of its three ways it goes: a product or quotient of two exact doubles, one
rounding of a large whole number, or the size of the decimal alone. Whole numbers of at most 53 bits
are doubles and are converted without a loss (`value_ofInt_of_lt`).
-/

namespace ObjectStore.Decimal

open Float.Model Float.Model.UnpackedFloat

variable {x : Float} {m m' M n : Nat} {e e' E : Int} {s s' : Sign}

theorem unpacked_of_ne_zero (h : m ≠ 0) :
    unpacked s m e = .finite s m e (Nat.pos_of_ne_zero h) := dif_neg h

/-! ## Products and quotients -/

/-- A product of doubles is rounded to the double that the product rounds to. -/
theorem mul_unpacked (hM : Fits M E) (hne : M ≠ 0) (hbits : 2 ^ 52 ≤ m * m')
    (hw : RoundsTo M E (m * 2 ^ e * (m' * 2 ^ e'))) :
    UnpackedFloat.mul Format.binary64 (unpacked s m e) (unpacked s' m' e')
      = unpacked (s * s') M E := by
  have hprod : m * m' ≠ 0 := by omega
  have hm : m ≠ 0 := left_ne_zero_of_mul hprod
  have hm' : m' ≠ 0 := right_ne_zero_of_mul hprod
  rw [unpacked_of_ne_zero hm, unpacked_of_ne_zero hm']
  refine roundWithAccuracy_eq hM hne ?_ ?_ hw
  · rw [targetExponent_eq]
    have := (Nat.le_log2 hprod).mpr hbits
    omega
  · have hsame : (m * 2 ^ e * (m' * 2 ^ e')) / 2 ^ (e + e') = ((m * m' : Nat) : ℚ) := by
      rw [← two_zpow_mul]
      push_cast
      field_simp
    rw [hsame]
    exact represents_exact _

/-- A quotient of doubles is rounded to the double that the quotient rounds to. -/
theorem div_unpacked (hM : Fits M E) (hne : M ≠ 0) (hm : m ≠ 0) (hm' : m' ≠ 0)
    (hw : RoundsTo M E (m * 2 ^ e / (m' * 2 ^ e'))) :
    UnpackedFloat.div Format.binary64 (unpacked s m e) (unpacked s' m' e')
      = unpacked (s / s') M E := by
  rw [unpacked_of_ne_zero hm, unpacked_of_ne_zero hm', UnpackedFloat.div, divCore]
  dsimp only
  have htarget : Format.binary64.targetExponent (totalExponent m e - totalExponent m' e')
      = max ((m.log2 : Int) - m'.log2 + e - e' - 53) (-1074) := by
    change max ((m.log2 : Int) + 1 + e - (m'.log2 + 1 + e') - 53) (-1074) = _
    omega
  rw [htarget]
  generalize ht : min (e - e') (max ((m.log2 : Int) - m'.log2 + e - e' - 53) (-1074)) = t
  generalize hk : (e - e' - t).toNat = k
  have hshift : e - e' = t + k := by omega
  rw [Nat.shiftLeft_eq]
  refine roundWithAccuracy_eq hM hne ?_ ?_ hw
  · rw [targetExponent_eq]
    by_cases hleast : t ≤ -1074
    · omega
    · -- the quotient has at least 53 bits
      have hbits : 2 ^ 52 ≤ m * 2 ^ k / m' := by
        rw [Nat.le_div_iff_mul_le (Nat.pos_of_ne_zero hm')]
        calc 2 ^ 52 * m' ≤ 2 ^ 52 * 2 ^ (m'.log2 + 1) := by gcongr; exact Nat.lt_log2_self.le
          _ = 2 ^ (m'.log2 + 53) := by rw [← pow_add]; congr 1; omega
          _ ≤ 2 ^ (m.log2 + k) := Nat.pow_le_pow_right two_pos (by omega)
          _ = 2 ^ m.log2 * 2 ^ k := pow_add ..
          _ ≤ m * 2 ^ k := by gcongr; exact Nat.log2_self_le hm
      have := (Nat.le_log2 (by omega)).mpr hbits
      omega
  · have hsame : (m * 2 ^ e / (m' * 2 ^ e')) / 2 ^ t = ((m * 2 ^ k : Nat) : ℚ) / m' := by
      have he : (2 : ℚ) ^ e = 2 ^ e' * 2 ^ t * 2 ^ k := by
        rw [two_zpow_mul, ← zpow_natCast, two_zpow_mul]
        congr 1
        omega
      rw [he]
      push_cast
      field_simp
    rw [hsame]
    exact represents_div hm'

/-! ## Decimals -/

/-- A double rounds to itself. -/
theorem roundsTo_self (m : Nat) (e : Int) : RoundsTo m e (m * 2 ^ e) := by
  have hstep : (0 : ℚ) < 2 ^ (e - 2) := by positivity
  have hself : (m * 2 ^ e : ℚ) = 4 * m * 2 ^ (e - 2) := by
    rw [zpow_sub₀ two_ne_zero]
    ring
  have hquarters : (1 : ℚ) ≤ quartersBelow m e := by
    unfold quartersBelow
    split <;> norm_num
  have hlow : ((4 * m - quartersBelow m e) * 2 ^ (e - 2) : ℚ) < m * 2 ^ e := by
    rw [hself]
    gcongr
    linarith
  have hhigh : (m * 2 ^ e : ℚ) < (4 * m + 2) * 2 ^ (e - 2) := by
    rw [hself]
    gcongr
    linarith
  exact ⟨hlow.le, hhigh.le, fun _ => ⟨hlow, hhigh⟩⟩

/-- What rounds to a double other than zero is at least half of the least such double. -/
theorem RoundsTo.least_le {w : ℚ} (hM : Fits M E) (hne : M ≠ 0) (hw : RoundsTo M E w) :
    2 ^ (-1075 : Int) ≤ w := by
  have hone : (1 : ℚ) ≤ M := by exact_mod_cast Nat.pos_of_ne_zero hne
  have hquarters : (quartersBelow M E : ℚ) ≤ 2 := by
    unfold quartersBelow
    split <;> norm_num
  have hleast := hM.least_le
  calc (2 : ℚ) ^ (-1075 : Int) ≤ 2 ^ (E - 1) := zpow_le_zpow_right₀ one_le_two (by omega)
    _ = 2 * 2 ^ (E - 2) := by rw [← zpow_one_add₀ two_ne_zero]; congr 1; omega
    _ ≤ (4 * M - quartersBelow M E) * 2 ^ (E - 2) := by gcongr; linarith
    _ ≤ w := hw.low_le

theorem two_zpow_le_ten_zpow {k : Int} (h : 0 ≤ k) : (2 : ℚ) ^ k ≤ 10 ^ k := by
  obtain ⟨k, rfl⟩ := Int.eq_ofNat_of_zero_le h
  rw [zpow_natCast, zpow_natCast]
  gcongr
  norm_num

/-- A decimal is rounded exactly. -/
theorem ofScientific_unpacked {k : Int} (hM : Fits M E) (hne : M ≠ 0)
    (hw : RoundsTo M E (n * 10 ^ k)) :
    UnpackedFloat.ofScientific Format.binary64 n k = unpacked .positive M E := by
  have hleast := hw.least_le hM hne
  have hn : n ≠ 0 := by
    rintro rfl
    rw [Nat.cast_zero, zero_mul] at hleast
    exact absurd hleast (not_le.mpr (by positivity))
  have hone : (1 : ℚ) ≤ n := by exact_mod_cast Nat.pos_of_ne_zero hn
  -- the bounds beyond which no power of ten is formed
  have hsmall : ¬ k > 2 ^ Format.binary64.exponentBits := by
    intro hk
    change k > 2048 at hk
    have hlarge : (2 : ℚ) ^ k ≤ n * 10 ^ k :=
      calc (2 : ℚ) ^ k ≤ 10 ^ k := two_zpow_le_ten_zpow (by omega)
        _ ≤ n * 10 ^ k := le_mul_of_one_le_left (by positivity) hone
    have hexponent := lt_of_two_zpow_lt (hlarge.trans_lt (hw.lt hM))
    have hgreatest := hM.le_greatest
    omega
  have hlarge : ¬ k < -(2 ^ Format.binary64.exponentBits + n.log2) := by
    intro hk
    change k < -(2048 + (n.log2 : Int)) at hk
    have hnext : (n : ℚ) ≤ 2 ^ ((n.log2 : Int) + 1) := by exact_mod_cast Nat.lt_log2_self.le
    have htiny : n * 10 ^ k ≤ (2 : ℚ) ^ ((n.log2 : Int) + 1 + k) :=
      calc (n * 10 ^ k : ℚ) ≤ 2 ^ ((n.log2 : Int) + 1) * 2 ^ k := by
            gcongr
            rw [← neg_neg k, zpow_neg, zpow_neg 2]
            exact inv_anti₀ (by positivity) (two_zpow_le_ten_zpow (by omega))
        _ = 2 ^ ((n.log2 : Int) + 1 + k) := two_zpow_mul ..
    have hexponent := (zpow_le_zpow_iff_right₀ (one_lt_two (α := ℚ))).mp (hleast.trans htiny)
    omega
  rw [UnpackedFloat.ofScientific, dif_neg hn, if_neg hsmall, if_neg hlarge]
  split
  next hk =>
    obtain ⟨k, rfl⟩ := Int.eq_ofNat_of_zero_le hk
    have hten : 10 ^ k ≠ 0 := by positivity
    have hshifted : n <<< 53 ≠ 0 := by
      rw [Nat.shiftLeft_eq]
      positivity
    have hprod : UnpackedFloat.mul Format.binary64 (unpacked .positive (n <<< 53) (-53))
        (unpacked .positive (10 ^ k) 0) = unpacked .positive M E := by
      refine mul_unpacked hM hne ?_ ?_
      · rw [Nat.shiftLeft_eq]
        have : 1 ≤ n * 10 ^ k := Nat.pos_of_ne_zero (mul_ne_zero hn hten)
        nlinarith
      · have hsame : (((n <<< 53 : Nat) : ℚ) * 2 ^ (-53 : Int) * ((10 ^ k : Nat) * 2 ^ (0 : Int)))
            = n * 10 ^ (k : Int) := by
          rw [Nat.shiftLeft_eq]
          push_cast
          norm_num
          ring
        rw [hsame]
        exact hw
    rw [unpacked_of_ne_zero hshifted, unpacked_of_ne_zero hten] at hprod
    exact hprod
  next hk =>
    obtain ⟨k', hk'⟩ := Int.eq_ofNat_of_zero_le (a := -k) (by omega)
    have hten : 10 ^ k' ≠ 0 := by positivity
    have hquot : UnpackedFloat.div Format.binary64 (unpacked .positive n 0)
        (unpacked .positive (10 ^ k') 0) = unpacked .positive M E := by
      refine div_unpacked hM hne hn hten ?_
      have hsame : ((n : ℚ) * 2 ^ (0 : Int) / ((10 ^ k' : Nat) * 2 ^ (0 : Int))) = n * 10 ^ k := by
        rw [← neg_neg k, hk', zpow_neg]
        push_cast
        norm_num
        rfl
      rw [hsame]
      exact hw
    rw [unpacked_of_ne_zero hn, unpacked_of_ne_zero hten] at hquot
    simp only [hk', Int.toNat_natCast]
    exact hquot

/-- A whole number of at most 53 bits is converted without a loss. -/
theorem exists_unpack_toFloat (hn : n ≠ 0) (hlt : n < 2 ^ 53) : ∃ (m : Nat) (e : Int), 2 ^ 52 ≤ m ∧
    n.toUInt64.toFloat.toModel.unpack = unpacked .positive m e ∧ (m : ℚ) * 2 ^ e = n := by
  have hlog : n.log2 < 53 := (Nat.log2_lt hn).mpr hlt
  have hfull : 2 ^ 52 ≤ n * 2 ^ (52 - n.log2) :=
    calc 2 ^ 52 = 2 ^ n.log2 * 2 ^ (52 - n.log2) := by rw [← pow_add]; congr 1; omega
      _ ≤ n * 2 ^ (52 - n.log2) := by gcongr; exact Nat.log2_self_le hn
  have hbits : n * 2 ^ (52 - n.log2) < 2 ^ 53 :=
    calc n * 2 ^ (52 - n.log2) < 2 ^ (n.log2 + 1) * 2 ^ (52 - n.log2) := by
          gcongr
          exact Nat.lt_log2_self
      _ = 2 ^ 53 := by rw [← pow_add]; congr 1; omega
  have hfits : Fits (n * 2 ^ (52 - n.log2)) ((n.log2 : Int) - 52) :=
    ⟨hbits, by omega, by omega, Or.inl hfull⟩
  have hwhole : n.toUInt64.toNat = n := by
    rw [Nat.toUInt64_eq, UInt64.toNat_ofNat']
    omega
  have htarget : Format.binary64.targetExponent (totalExponent n 0) = (n.log2 : Int) - 52 := by
    rw [targetExponent_eq]
    omega
  have hshift : (0 - ((n.log2 : Int) - 52)).toNat = 52 - n.log2 := by omega
  have hexponent : (0 : Int) - (52 - n.log2 : Nat) = (n.log2 : Int) - 52 := by omega
  have hround : UnpackedFloat.ofUInt64 Format.binary64 n.toUInt64
      = unpacked .positive (n * 2 ^ (52 - n.log2)) ((n.log2 : Int) - 52) := by
    have hpositive : compare (n : Int) 0 = .gt :=
      Int.compare_eq_gt.mpr (Int.natCast_pos.mpr (Nat.pos_of_ne_zero hn))
    rw [UnpackedFloat.ofUInt64, hwhole, UnpackedFloat.ofNat, UnpackedFloat.ofInt,
      UnpackedFloat.normalize, hpositive]
    dsimp only
    rw [Int.toNat_natCast, UnpackedFloat.round, decreaseExponent, htarget]
    dsimp only
    rw [hshift, hexponent, Nat.shiftLeft_eq]
    refine roundWithAccuracy_eq hfits (by positivity) ?_ ?_ (roundsTo_self _ _)
    · rw [targetExponent_eq]
      have := (Nat.le_log2 (by positivity)).mpr hfull
      omega
    · rw [mul_div_cancel_right₀ _ (by positivity)]
      exact represents_exact _
  refine ⟨_, (n.log2 : Int) - 52, hfull, ?_, ?_⟩
  · change (Float.Model.pack (UnpackedFloat.ofUInt64 Format.binary64 n.toUInt64)).unpack = _
    rw [hround]
    exact unpack_pack hfits
  · have hzero : ((52 - n.log2 : Nat) : Int) + ((n.log2 : Int) - 52) = 0 := by omega
    push_cast
    rw [mul_assoc, ← zpow_natCast, two_zpow_mul, hzero, zpow_zero, mul_one]

/-- The table of powers of ten holds the powers of ten. -/
theorem powersOfTen : ∀ k : Fin 23,
    (Float.exactlyRepresentablePowersOfTen[k.val]).isFinite = true ∧
      isNegative (Float.exactlyRepresentablePowersOfTen[k.val]) = false ∧
      -52 ≤ (Dyadic.ofFloat (Float.exactlyRepresentablePowersOfTen[k.val])).exponent ∧
      (Dyadic.ofFloat (Float.exactlyRepresentablePowersOfTen[k.val])).mantissa * 2 ^
        ((Dyadic.ofFloat (Float.exactlyRepresentablePowersOfTen[k.val])).exponent + 52).toNat
          = 10 ^ k.val * 2 ^ 52 := by
  decide +kernel

theorem exists_unpack_powerOfTen {k : Nat} (h : k < 23) : ∃ (m : Nat) (e : Int), m ≠ 0 ∧
    (Float.exactlyRepresentablePowersOfTen[k]).toModel.unpack = unpacked .positive m e ∧
      (m : ℚ) * 2 ^ e = 10 ^ k := by
  obtain ⟨hfinite, hsign, hleast, hsame⟩ := powersOfTen ⟨k, h⟩
  dsimp only at hfinite hsign hleast hsame
  generalize Float.exactlyRepresentablePowersOfTen[k] = power at *
  refine ⟨(Dyadic.ofFloat power).mantissa, (Dyadic.ofFloat power).exponent, ?_, ?_, ?_⟩
  · intro hzero
    rw [hzero, zero_mul] at hsame
    exact absurd hsame (by positivity)
  · rw [unpack_eq hfinite, hsign]
    rfl
  · have hexponent : (Dyadic.ofFloat power).exponent
        = ((Dyadic.ofFloat power).exponent + 52).toNat - (52 : Int) := by omega
    rw [hexponent, zpow_sub₀ two_ne_zero, zpow_natCast, mul_div_assoc', div_eq_iff (by positivity)]
    exact_mod_cast hsame

/-- A decimal is read as the double that it rounds to. -/
theorem toModel_ofScientific {k : Nat} {negative : Bool} (hM : Fits M E) (hne : M ≠ 0)
    (hw : RoundsTo M E (n * 10 ^ (if negative then -(k : Int) else k))) :
    (Float.ofScientific n negative k).toModel = .pack (unpacked .positive M E) := by
  unfold Float.ofScientific
  split
  next h =>
    have hn : n ≠ 0 := by
      rintro rfl
      have hleast := hw.least_le hM hne
      rw [Nat.cast_zero, zero_mul] at hleast
      exact absurd hleast (not_le.mpr (by positivity))
    -- both operands are doubles, so only their product or quotient is rounded
    obtain ⟨m, e, hm, hwhole, hvalue⟩ := exists_unpack_toFloat hn h.1
    obtain ⟨m', e', hm', hpower, hsame⟩ := exists_unpack_powerOfTen (Nat.lt_succ_of_le h.2)
    cases negative with
    | true =>
      refine congrArg Float.Model.pack
        ((congrArg₂ (UnpackedFloat.div Format.binary64) hwhole hpower).trans ?_)
      refine div_unpacked hM hne (by omega) hm' ?_
      rw [hvalue, hsame, div_eq_mul_inv, ← zpow_natCast, ← zpow_neg]
      exact hw
    | false =>
      refine congrArg Float.Model.pack
        ((congrArg₂ (UnpackedFloat.mul Format.binary64) hwhole hpower).trans ?_)
      refine mul_unpacked hM hne (hm.trans (Nat.le_mul_of_pos_right _ (Nat.pos_of_ne_zero hm'))) ?_
      rw [hvalue, hsame, ← zpow_natCast]
      exact hw
  next =>
    refine congrArg Float.Model.pack ?_
    cases negative with
    | true => exact ofScientific_unpacked hM hne (by rw [Int.negOfNat_eq]; exact hw)
    | false => exact ofScientific_unpacked hM hne hw

/-! ## The nearest double -/

theorem digitCount_le_iff {k : Nat} (hk : 0 < k) : digitCount n ≤ k ↔ n < 10 ^ k :=
  Nat.length_toDigits_le_iff (by decide) hk

theorem digitCount_pos (n : Nat) : 0 < digitCount n := Nat.length_toDigits_pos

theorem lt_ten_pow_digitCount (n : Nat) : n < 10 ^ digitCount n :=
  (digitCount_le_iff (digitCount_pos n)).mp (le_refl _)

theorem ten_pow_le (hn : n ≠ 0) : 10 ^ (digitCount n - 1) ≤ n := by
  by_cases hone : digitCount n = 1
  · rw [hone]
    exact Nat.pos_of_ne_zero hn
  · have hpos := digitCount_pos n
    by_contra hlt
    have := (digitCount_le_iff (n := n) (k := digitCount n - 1) (by omega)).mpr (by omega)
    omega

/-- The range of doubles is well inside the range of decimals of 400 places. -/
theorem two_zpow_lt_ten_zpow : (2 : ℚ) ^ (1075 : Int) < 10 ^ (400 : Int) :=
  calc (2 : ℚ) ^ (1075 : Int) = (2 ^ 215) ^ 5 := by rw [← pow_mul]; rfl
    _ < (10 ^ 80) ^ 5 := by gcongr; norm_num
    _ = 10 ^ (400 : Int) := by rw [← pow_mul]; rfl

/-- The place of the first digit of a decimal that rounds to a double other than zero. -/
theorem size_bounds {k : Int} (hM : Fits M E) (hne : M ≠ 0) (hn : n ≠ 0)
    (hw : RoundsTo M E (n * 10 ^ k)) :
    (digitCount n : Int) + k ≤ 400 ∧ -400 ≤ (digitCount n : Int) + k := by
  have hpos := digitCount_pos n
  have hgreatest := hM.le_greatest
  constructor
  · by_contra hlt
    have hfirst : (10 : ℚ) ^ (digitCount n - 1 : Nat) ≤ n := by exact_mod_cast ten_pow_le hn
    have hlarge : (10 : ℚ) ^ (400 : Int) ≤ n * 10 ^ k :=
      calc (10 : ℚ) ^ (400 : Int) ≤ 10 ^ ((digitCount n - 1 : Nat) + k) :=
            zpow_le_zpow_right₀ (by norm_num) (by omega)
        _ = 10 ^ (digitCount n - 1 : Nat) * 10 ^ k := by
            rw [zpow_add₀ (by norm_num), zpow_natCast]
        _ ≤ n * 10 ^ k := by gcongr
    have hbound : (2 : ℚ) ^ (E + 53) ≤ 2 ^ (1075 : Int) :=
      zpow_le_zpow_right₀ one_le_two (by omega)
    exact absurd two_zpow_lt_ten_zpow ((hlarge.trans (hw.lt hM).le).trans hbound).not_gt
  · by_contra hlt
    have hnext : (n : ℚ) ≤ 10 ^ digitCount n := by exact_mod_cast (lt_ten_pow_digitCount n).le
    have hsmall : n * 10 ^ k ≤ (10 : ℚ) ^ (-400 : Int) :=
      calc (n * 10 ^ k : ℚ) ≤ 10 ^ digitCount n * 10 ^ k := by gcongr
        _ = 10 ^ ((digitCount n : Int) + k) := by rw [zpow_add₀ (by norm_num), zpow_natCast]
        _ ≤ 10 ^ (-400 : Int) := zpow_le_zpow_right₀ (by norm_num) (by omega)
    have hless := (hw.least_le hM hne).trans hsmall
    rw [zpow_neg, zpow_neg, inv_le_inv₀ (by positivity) (by positivity)] at hless
    exact absurd two_zpow_lt_ten_zpow hless.not_gt

/-- A double is what it unpacks to, packed. -/
theorem eq_of_toModel {y : Float} (hx : x.isFinite = true)
    (h : y.toModel = .pack (unpacked (signOf (isNegative x)) (Dyadic.ofFloat x).mantissa
      (Dyadic.ofFloat x).exponent)) : y = x := by
  rw [← unpack_eq hx] at h
  exact (congrArg Float.ofModel h).trans (ofModel_pack_unpack x)

/-- What changes the sign changes what is packed. -/
theorem toModel_signed {y : Float} (negative : Bool) (hM : Fits M E)
    (hy : y.toModel = .pack (unpacked .positive M E)) :
    (signed negative y).toModel = .pack (unpacked (signOf negative) M E) := by
  cases negative with
  | false => exact hy
  | true =>
    change Float.Model.pack y.toModel.unpack.neg = _
    rw [hy, unpack_pack hM]
    refine congrArg Float.Model.pack ?_
    by_cases hm : M = 0
    · rw [unpacked, unpacked, dif_pos hm, dif_pos hm]
      rfl
    · rw [unpacked_of_ne_zero hm, unpacked_of_ne_zero hm]
      rfl

/-- A decimal names the double that its magnitude rounds to and that has its sign. -/
structure Names (negative : Bool) (magnitude : ℚ) (x : Float) : Prop where
  isFinite : x.isFinite = true
  isNegative_eq : isNegative x = negative
  rounds : if (Dyadic.ofFloat x).mantissa = 0 then magnitude = 0
    else RoundsTo (Dyadic.ofFloat x).mantissa (Dyadic.ofFloat x).exponent magnitude

/-- The double nearest to a decimal is the one that the decimal names. -/
theorem nearest_eq {negative : Bool} {k : Int} (h : Names negative (n * 10 ^ k) x) :
    nearest negative n k = x := by
  obtain ⟨hx, rfl, hrounds⟩ := h
  have hM := Dyadic.fits hx
  refine eq_of_toModel hx ?_
  generalize (Dyadic.ofFloat x).mantissa = M at *
  generalize (Dyadic.ofFloat x).exponent = E at *
  by_cases hne : M = 0
  · have hn : n = 0 := by
      rw [if_pos hne] at hrounds
      have hten : (10 : ℚ) ^ k ≠ 0 := by positivity
      exact_mod_cast (mul_eq_zero.mp hrounds).resolve_right hten
    have hE : E = -1074 := hM.full.resolve_left (by omega)
    subst hne hE
    rw [nearest, if_pos hn]
    exact toModel_signed _ hM rfl
  · rw [if_neg hne] at hrounds
    have hleast := hrounds.least_le hM hne
    have hn : n ≠ 0 := by
      rintro rfl
      rw [Nat.cast_zero, zero_mul] at hleast
      exact absurd hleast (not_le.mpr (by positivity))
    obtain ⟨hsmall, hlarge⟩ := size_bounds hM hne hn hrounds
    rw [nearest, if_neg hn]
    dsimp only
    rw [if_neg hsmall.not_gt, if_neg hlarge.not_gt]
    split
    next hk =>
      refine toModel_signed _ hM (toModel_ofScientific hM hne ?_)
      rw [if_neg Bool.false_ne_true, Int.toNat_of_nonneg hk]
      exact hrounds
    next hk =>
      refine toModel_signed _ hM (toModel_ofScientific hM hne ?_)
      rw [if_pos rfl, Int.toNat_of_nonneg (by omega), neg_neg]
      exact hrounds

/-- A whole number that is a double is converted to it, up to the sign of zero. -/
theorem ofInt_eq {z : Int} (hx : x.isFinite = true) (hz : z ≠ 0) (h : value x = z) :
    Float.ofInt z = x := by
  have hM := Dyadic.fits hx
  have hnonneg : (0 : ℚ) ≤ (Dyadic.ofFloat x).mantissa * 2 ^ (Dyadic.ofFloat x).exponent := by
    positivity
  have hz' : (z : ℚ) ≠ 0 := by exact_mod_cast hz
  have hne : (Dyadic.ofFloat x).mantissa ≠ 0 := by
    intro hzero
    rw [value, hzero, Nat.cast_zero, zero_mul, mul_zero] at h
    exact hz' h.symm
  have hself := roundsTo_self (Dyadic.ofFloat x).mantissa (Dyadic.ofFloat x).exponent
  refine eq_of_toModel hx ?_
  rw [value_eq] at h
  cases hsign : isNegative x with
  | false =>
    rw [hsign, if_neg Bool.false_ne_true] at h
    obtain ⟨n, rfl⟩ := Int.eq_ofNat_of_zero_le (a := z) (by exact_mod_cast h ▸ hnonneg)
    refine toModel_ofScientific (n := n) hM hne ?_
    rw [if_neg Bool.false_ne_true, Nat.cast_zero, zpow_zero, mul_one]
    rw [h] at hself
    exact hself
  | true =>
    rw [hsign, if_pos rfl] at h
    have hz0 : z ≤ 0 := by
      have : (z : ℚ) ≤ 0 := by linarith
      exact_mod_cast this
    obtain ⟨n, rfl⟩ := Int.eq_negSucc_of_lt_zero (lt_of_le_of_ne hz0 hz)
    refine toModel_signed true hM (toModel_ofScientific (n := n.succ) (k := 0) hM hne ?_)
    rw [if_neg Bool.false_ne_true, Nat.cast_zero, zpow_zero, mul_one]
    have hmagnitude : ((Dyadic.ofFloat x).mantissa * 2 ^ (Dyadic.ofFloat x).exponent : ℚ)
        = (n.succ : Nat) := by
      rw [Int.negSucc_eq] at h
      push_cast at h ⊢
      linarith
    rw [hmagnitude] at hself
    exact hself

/-- A whole number that is a double has its own value. -/
theorem value_ofInt {z : Int} (hx : x.isFinite = true) (h : value x = z) :
    (Float.ofInt z).isFinite = true ∧ value (Float.ofInt z) = z := by
  by_cases hz : z = 0
  · subst hz
    have hzero : (Dyadic.ofFloat (Float.ofInt 0)).mantissa = 0 := by decide +kernel
    refine ⟨by decide +kernel, ?_⟩
    rw [value, hzero, Nat.cast_zero, zero_mul, mul_zero, Int.cast_zero]
  · rw [ofInt_eq hx hz h]
    exact ⟨hx, h⟩

/-- A whole number of at most 53 bits is a double. -/
theorem exists_value_eq {z : Int} (h : z.natAbs < 2 ^ 53) :
    ∃ x : Float, x.isFinite = true ∧ value x = z := by
  by_cases hz : z = 0
  · refine ⟨0.0, by decide +kernel, ?_⟩
    have hzero : (Dyadic.ofFloat 0.0).mantissa = 0 := by decide +kernel
    rw [value, hzero, hz, Nat.cast_zero, zero_mul, mul_zero, Int.cast_zero]
  · obtain ⟨m, e, hm, hunpack, hvalue⟩ := exists_unpack_toFloat (Int.natAbs_ne_zero.mpr hz) h
    generalize z.natAbs.toUInt64.toFloat = y at hunpack
    obtain ⟨hfinite, hnonneg⟩ := @value_of_unpack y false m e hunpack
    have hfits : Fits m e := by
      have hy := (unpack_eq hfinite).symm.trans hunpack
      obtain ⟨-, hmantissa, hexponent⟩ := unpacked_inj hy
      have hfits := Dyadic.fits hfinite
      rw [hexponent (by omega), hmantissa] at hfits
      exact hfits
    rw [if_neg Bool.false_ne_true, one_mul, hvalue] at hnonneg
    rcases Int.natAbs_eq z with hpos | hneg
    · refine ⟨y, hfinite, ?_⟩
      rw [hnonneg, hpos]
      simp
    · have hpack : (signed true y).toModel = .pack (unpacked (signOf true) m e) :=
        toModel_signed true hfits (by
          rw [← hunpack]
          have hmodel := ofModel_pack_unpack y
          exact (congrArg Float.toModel hmodel).symm)
      obtain ⟨hfinite', hnonpos⟩ := @value_of_unpack (signed true y) true m e (by
        rw [hpack, unpack_pack hfits])
      refine ⟨_, hfinite', ?_⟩
      rw [hnonpos, hvalue, if_pos rfl, hneg]
      simp
theorem value_ofInt_of_lt {z : Int} (h : z.natAbs < 2 ^ 53) :
    (Float.ofInt z).isFinite = true ∧ value (Float.ofInt z) = z := by
  obtain ⟨x, hx, hvalue⟩ := exists_value_eq h
  exact value_ofInt hx hvalue

end ObjectStore.Decimal
