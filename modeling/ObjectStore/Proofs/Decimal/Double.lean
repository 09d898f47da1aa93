import ObjectStore.Decimal.Shortest
import Mathlib

/-!
# Doubles as numbers

A double is 64 bits, and the logic computes with what they unpack to: a sign, a mantissa and an
exponent. This module ties three views of a finite double to each other: its bits, what it unpacks
to (`unpack_eq`), and the number that it is (`value`). The bounds of mantissas and exponents are
`Fits`; what fits is packed without a loss (`unpack_pack`), and doubles are compared as the numbers
that they are (`le_iff`, `beq_iff`).
-/

namespace ObjectStore.Decimal

open Float.Model Float.Model.UnpackedFloat

/-! ## The fields of a double -/

/-- An unpacked double, which is zero if its mantissa is. -/
def unpacked (sign : Sign) (mantissa : Nat) (exponent : Int) : UnpackedFloat :=
  if h : mantissa = 0 then .zero sign else .finite sign mantissa exponent (Nat.pos_of_ne_zero h)

/-- The bounds of the mantissa and the exponent of a double: the mantissa has 53 bits, or fewer
where the exponent is the least one. -/
structure Fits (mantissa : Nat) (exponent : Int) : Prop where
  mantissa_lt : mantissa < 2 ^ 53
  least_le : -1074 ≤ exponent
  le_greatest : exponent ≤ 971
  full : 2 ^ 52 ≤ mantissa ∨ exponent = -1074

/-- The sign of a double whose sign bit is known. -/
def signOf (negative : Bool) : Sign := if negative then .negative else .positive

section Bits

variable (b : BitVec 64)

theorem toNat_unpackMantissa :
    (@unpackMantissa Format.binary64 b).toNat = b.toNat % 2 ^ 52 := by
  rw [unpackMantissa_def]
  simp [BitVec.extractLsb'_toNat]

theorem toNat_unpackExponent :
    (@unpackExponent Format.binary64 b).toNat = b.toNat / 2 ^ 52 % 2 ^ 11 := by
  rw [unpackExponent_def]
  simp [BitVec.extractLsb'_toNat, Nat.shiftRight_eq_div_pow]

theorem ofBitVec_unpackSign :
    Sign.ofBitVec (@unpackSign Format.binary64 b) = signOf (b.toNat.testBit 63) := by
  have hbit : (b.extractLsb' 63 1).toNat = b.toNat / 2 ^ 63 % 2 := by
    simp [BitVec.extractLsb'_toNat, Nat.shiftRight_eq_div_pow]
  have hzero : b.extractLsb' 63 1 = 0#1 ↔ ¬ b.toNat / 2 ^ 63 % 2 = 1 := by
    rw [← BitVec.toNat_inj, hbit]
    change _ % 2 = 0 ↔ _
    omega
  rw [unpackSign_def, Nat.testBit_eq_decide_div_mod_eq]
  change (if b.extractLsb' 63 1 = 0#1 then Sign.positive else .negative) = _
  rw [if_congr hzero rfl rfl, signOf]
  by_cases h : b.toNat / 2 ^ 63 % 2 = 1 <;> simp only [h, decide_true, decide_false] <;> rfl

/-- Bits are unpacked field by field; the greatest exponent field stands for no number. -/
theorem unpack_fields (h : (@unpackExponent Format.binary64 b).toNat ≠ 2047) :
    UnpackedFloat.unpack Format.binary64 b =
      if (@unpackExponent Format.binary64 b).toNat = 0 then
        unpacked (.ofBitVec (@unpackSign Format.binary64 b))
          (@unpackMantissa Format.binary64 b).toNat (-1074)
      else
        unpacked (.ofBitVec (@unpackSign Format.binary64 b))
          (2 ^ 52 + (@unpackMantissa Format.binary64 b).toNat)
          ((@unpackExponent Format.binary64 b).toNat - 1075) := by
  have hnotTop : @unpackExponent Format.binary64 b ≠ -1#11 := by
    intro heq
    rw [heq] at h
    exact h rfl
  have hzero : @unpackExponent Format.binary64 b = 0#11
      ↔ (@unpackExponent Format.binary64 b).toNat = 0 := by
    rw [← BitVec.toNat_inj]
    rfl
  have hempty : @unpackMantissa Format.binary64 b = 0#52
      ↔ (@unpackMantissa Format.binary64 b).toNat = 0 := by
    rw [← BitVec.toNat_inj]
    rfl
  rw [UnpackedFloat.unpack]
  dsimp only
  rw [if_neg hnotTop]
  by_cases hfield : (@unpackExponent Format.binary64 b).toNat = 0
  · rw [if_pos (hzero.mpr hfield), if_pos hfield, unpacked]
    by_cases hm : (@unpackMantissa Format.binary64 b).toNat = 0
    · rw [dif_pos (hempty.mpr hm), dif_pos hm]
    · rw [dif_neg (mt hempty.mp hm), dif_neg hm]
      congr 1
      rw [hfield]
      rfl
  · rw [if_neg (mt hzero.mp hfield), if_neg hfield, unpacked,
      dif_neg (Nat.add_pos_left (by decide) _).ne']
    congr 1
    rw [BitVec.toNat_append, ← Nat.shiftLeft_add_eq_or_of_lt (BitVec.isLt _)]
    rfl

end Bits

variable {x y : Float} {sign : Sign} {mantissa : Nat} {exponent : Int}

/-- The field of the exponent in the bits of a double. -/
def exponentField (x : Float) : Nat := x.toBits.toNat / 2 ^ 52 % 2 ^ 11

/-- The field of the mantissa in the bits of a double. -/
def mantissaField (x : Float) : Nat := x.toBits.toNat % 2 ^ 52

theorem mantissaField_lt (x : Float) : mantissaField x < 2 ^ 52 := Nat.mod_lt _ (by decide)

theorem dyadic_ofFloat (x : Float) : Dyadic.ofFloat x =
    if exponentField x = 0 then ⟨mantissaField x, -1074, false⟩
    else ⟨2 ^ 52 + mantissaField x, (exponentField x : Int) - 1075,
      mantissaField x = 0 && 1 < exponentField x⟩ := by
  have hfield : x.toBits.toNat % 2 ^ 63 / 2 ^ 52 = exponentField x := by
    unfold exponentField
    omega
  have hfraction : x.toBits.toNat % 2 ^ 63 % 2 ^ 52 = mantissaField x := by
    unfold mantissaField
    omega
  rw [← hfield, ← hfraction]
  rfl

/-- The exponent field of a finite double is not the greatest one. -/
theorem exponentField_lt (h : x.isFinite = true) : exponentField x < 2047 := by
  have hne : @unpackExponent Format.binary64 x.toModel.toBits.toBitVec ≠ -1#11 := by
    intro hfield
    unfold Float.isFinite Float.Model.isFinite Float.Model.unpack UnpackedFloat.unpack at h
    dsimp only at h
    rw [if_pos hfield] at h
    split at h <;> cases h
  have hlt : exponentField x < 2 ^ 11 := Nat.mod_lt _ (by decide)
  have hfield : exponentField x ≠ 2047 := fun heq => hne (BitVec.toNat_inj.mp (by
    rw [toNat_unpackExponent]
    exact heq))
  omega

/-- A finite double unpacks to its mantissa and its exponent. -/
theorem unpack_eq (h : x.isFinite = true) : x.toModel.unpack
    = unpacked (signOf (isNegative x)) (Dyadic.ofFloat x).mantissa (Dyadic.ofFloat x).exponent := by
  have hlt := exponentField_lt h
  have hexponent : (@unpackExponent Format.binary64 x.toModel.toBits.toBitVec).toNat
      = exponentField x := toNat_unpackExponent _
  have hmantissa : (@unpackMantissa Format.binary64 x.toModel.toBits.toBitVec).toNat
      = mantissaField x := toNat_unpackMantissa _
  have hsign : Sign.ofBitVec (@unpackSign Format.binary64 x.toModel.toBits.toBitVec)
      = signOf (isNegative x) := ofBitVec_unpackSign _
  rw [Float.Model.unpack, unpack_fields _ (by omega), hexponent, hmantissa, hsign, dyadic_ofFloat]
  split <;> rfl

/-- The mantissa and the exponent of a finite double are bounded. -/
theorem Dyadic.fits (h : x.isFinite = true) :
    Fits (Dyadic.ofFloat x).mantissa (Dyadic.ofFloat x).exponent := by
  have hlt := exponentField_lt h
  have hmantissa := mantissaField_lt x
  rw [dyadic_ofFloat]
  split
  · exact ⟨by dsimp only; omega, le_refl _, by dsimp only; omega, Or.inr rfl⟩
  · exact ⟨by dsimp only; omega, by dsimp only; omega, by dsimp only; omega,
      Or.inl (Nat.le_add_right _ _)⟩

/-- The next smaller double is nearer than the next larger one at the powers of two, down to the
least exponent. -/
theorem Dyadic.boundary_iff (x : Float) : (Dyadic.ofFloat x).boundary = true ↔
    (Dyadic.ofFloat x).mantissa = 2 ^ 52 ∧ -1074 < (Dyadic.ofFloat x).exponent := by
  rw [dyadic_ofFloat]
  split
  · simp
  · simp
    omega

/-! ## Packing -/

theorem ofModel_pack_unpack (x : Float) : Float.ofModel (.pack x.toModel.unpack) = x := by
  have hbits : UnpackedFloat.pack Format.binary64 x.toModel.unpack = x.toModel.toBits.toBitVec :=
    UnpackedFloat.pack_unpack_of_valid x.toModel.valid
  have hmodel : Float.Model.pack x.toModel.unpack = x.toModel := by
    cases hx : x.toModel with
    | mk bits valid =>
      rw [hx] at hbits
      unfold Float.Model.pack
      congr 1
      exact congrArg UInt64.ofBitVec hbits
  rw [hmodel]

theorem ofBitVec_unpackSign_packComponents (sign : Sign) (e : BitVec 11) (m : BitVec 52) :
    Sign.ofBitVec (unpackSign (packComponents Format.binary64 sign e m)) = sign := by
  rw [unpackSign_packComponents, Sign.ofBitVec_toBitVec]

/-- What is packed of fields is unpacked again. -/
theorem unpack_packComponents {field fraction : Nat} (hfield : field < 2047)
    (hfraction : fraction < 2 ^ 52) :
    UnpackedFloat.unpack Format.binary64
        (packComponents Format.binary64 sign (.ofNat 11 field) (.ofNat 52 fraction)) =
      if field = 0 then unpacked sign fraction (-1074)
      else unpacked sign (2 ^ 52 + fraction) (field - 1075) := by
  have hexponent : (BitVec.ofNat 11 field).toNat = field := by
    rw [BitVec.toNat_ofNat]
    omega
  have hmantissa : (BitVec.ofNat 52 fraction).toNat = fraction := by
    rw [BitVec.toNat_ofNat]
    omega
  have hexponent' : (unpackExponent (packComponents Format.binary64 sign (.ofNat 11 field)
      (.ofNat 52 fraction))).toNat = field := by
    rw [unpackExponent_packComponents]
    exact hexponent
  have hmantissa' : (unpackMantissa (packComponents Format.binary64 sign (.ofNat 11 field)
      (.ofNat 52 fraction))).toNat = fraction := by
    rw [unpackMantissa_packComponents]
    exact hmantissa
  rw [unpack_fields _ (by omega), hexponent', hmantissa', ofBitVec_unpackSign_packComponents]

/-- What fits the bounds is packed without a loss. -/
theorem unpack_pack (h : Fits mantissa exponent) :
    (Float.Model.pack (unpacked sign mantissa exponent)).unpack
      = unpacked sign mantissa exponent := by
  obtain ⟨hlt, hleast, hgreatest, hfull⟩ := h
  by_cases hm : mantissa = 0
  · rw [unpacked, dif_pos hm]
    exact UnpackedFloat.unpack_packedZero
  have hlog : mantissa.log2 + 1 = 53 ↔ 2 ^ 52 ≤ mantissa := by
    rw [← Nat.le_log2 hm]
    have := (Nat.log2_lt hm).mpr hlt
    omega
  have hpack : UnpackedFloat.pack Format.binary64 (unpacked sign mantissa exponent) =
      if mantissa.log2 + 1 = 53 then
        packComponents Format.binary64 sign (.ofNat 11 (exponent + 1075).toNat)
          (.ofNat 52 (mantissa % 2 ^ 52))
      else packComponents Format.binary64 sign (.ofNat 11 0) (.ofNat 52 (mantissa % 2 ^ 52)) := by
    have hbiased : exponent + Format.binary64.exponentBias
        + Format.binary64.mantissaBitsWithoutImplicit = exponent + 1075 := by
      change exponent + 1023 + 52 = _
      omega
    have hmod : BitVec.ofNat 52 (mantissa % 2 ^ 52) = BitVec.ofNat 52 mantissa := by
      rw [← BitVec.toNat_inj, BitVec.toNat_ofNat, BitVec.toNat_ofNat, Nat.mod_mod]
    have hsmall : ¬ 2 ^ Format.binary64.exponentBits ≤ (exponent + 1075).toNat + 1 := by
      change ¬ 2 ^ 11 ≤ _
      omega
    rw [unpacked, dif_neg hm, UnpackedFloat.pack, hmod]
    dsimp only
    rw [hbiased, if_neg hsmall]
    rfl
  unfold Float.Model.pack Float.Model.unpack
  dsimp only
  rw [hpack]
  by_cases hnormal : 2 ^ 52 ≤ mantissa
  · rw [if_pos (hlog.mpr hnormal), unpack_packComponents (by omega) (Nat.mod_lt _ (by decide)),
      if_neg (by omega)]
    congr 1 <;> omega
  · obtain rfl : exponent = -1074 := hfull.resolve_left hnormal
    rw [if_neg (mt hlog.mp hnormal), unpack_packComponents (by omega) (Nat.mod_lt _ (by decide)),
      if_pos rfl]
    congr 1
    omega

/-! ## Doubles as numbers -/

/-- The number that a finite double is. -/
def value (x : Float) : ℚ :=
  (if isNegative x then -1 else 1) * ((Dyadic.ofFloat x).mantissa * 2 ^ (Dyadic.ofFloat x).exponent)

section Order

variable {m m' : Nat} {e e' : Int}

/-- Of two mantissas with exponents, those with the greater exponent stand for the greater number.
-/
theorem lt_of_exponent_lt (h : Fits m e) (h' : Fits m' e') (he : e < e') :
    (m : ℚ) * 2 ^ e < m' * 2 ^ e' := by
  have hm : (m : ℚ) < 2 ^ 53 := by exact_mod_cast h.mantissa_lt
  have hm' : (2 : ℚ) ^ 52 ≤ m' := by
    have := h'.full.resolve_right (by have := h.least_le; omega)
    exact_mod_cast this
  calc (m : ℚ) * 2 ^ e < 2 ^ 53 * 2 ^ e := by gcongr
    _ = 2 ^ 52 * 2 ^ (e + 1) := by rw [zpow_add₀ (by norm_num)]; ring
    _ ≤ 2 ^ 52 * 2 ^ e' := by gcongr <;> [norm_num; omega]
    _ ≤ m' * 2 ^ e' := by gcongr

/-- Numbers are ordered as their exponents are, and their mantissas after these. -/
theorem lex_of_le (h : Fits m e) (h' : Fits m' e') (hle : (m : ℚ) * 2 ^ e ≤ m' * 2 ^ e') :
    e < e' ∨ e = e' ∧ m ≤ m' := by
  rcases lt_trichotomy e e' with he | rfl | he
  · exact Or.inl he
  · refine Or.inr ⟨rfl, ?_⟩
    exact_mod_cast le_of_mul_le_mul_right hle (by positivity)
  · exact absurd hle (not_le.mpr (lt_of_exponent_lt h' h he))

theorem eq_of_eq (h : Fits m e) (h' : Fits m' e') (heq : (m : ℚ) * 2 ^ e = m' * 2 ^ e') :
    m = m' ∧ e = e' := by
  have hle := lex_of_le h h' heq.le
  have hge := lex_of_le h' h heq.ge
  omega

end Order

theorem value_eq (x : Float) : value x =
    (if isNegative x then -((Dyadic.ofFloat x).mantissa * 2 ^ (Dyadic.ofFloat x).exponent : ℚ)
      else (Dyadic.ofFloat x).mantissa * 2 ^ (Dyadic.ofFloat x).exponent) := by
  unfold value
  split <;> ring

theorem isLE_lex {k k' : Nat} {i i' : Int} (h : i < i' ∨ i = i' ∧ k ≤ k') :
    ((compare i i').then (compare k k')).isLE = true := by
  rcases h with hlt | ⟨rfl, hle⟩
  · rw [compare_lt_iff_lt.mpr hlt]
    rfl
  · rw [compare_eq_iff_eq.mpr rfl]
    exact Nat.isLE_compare.mpr hle

/-- Unpacked doubles are ordered as the numbers that they are. -/
theorem le_unpacked {s s' : Bool} {m m' : Nat} {e e' : Int} (h : Fits m e) (h' : Fits m' e')
    (hle : (if s then -(m * 2 ^ e : ℚ) else m * 2 ^ e)
      ≤ if s' then -(m' * 2 ^ e' : ℚ) else m' * 2 ^ e') :
    ((unpacked (signOf s) m e).le (unpacked (signOf s') m' e')) = true := by
  have hnonneg : (0 : ℚ) ≤ m * 2 ^ e := by positivity
  have hnonneg' : (0 : ℚ) ≤ m' * 2 ^ e' := by positivity
  have hpos : m ≠ 0 → (0 : ℚ) < m * 2 ^ e := fun hm => by positivity
  have hpos' : m' ≠ 0 → (0 : ℚ) < m' * 2 ^ e' := fun hm => by positivity
  unfold unpacked
  cases s <;> cases s' <;> simp only [Bool.false_eq_true, if_true, if_false] at hle
  case false.false =>
    by_cases hm : m = 0
    · by_cases hm' : m' = 0 <;> simp only [hm, hm', dif_pos, dif_neg, not_false_eq_true] <;> rfl
    · have hm' : m' ≠ 0 := by
        rintro rfl
        have := hpos hm
        simp only [Nat.cast_zero, zero_mul] at hle
        linarith
      rw [dif_neg hm, dif_neg hm']
      exact isLE_lex (lex_of_le h h' hle)
  case false.true =>
    have hm : m = 0 := Classical.byContradiction fun hm => by linarith [hpos hm]
    have hm' : m' = 0 := Classical.byContradiction fun hm => by linarith [hpos' hm]
    rw [dif_pos hm, dif_pos hm']
    rfl
  case true.false =>
    by_cases hm : m = 0 <;> by_cases hm' : m' = 0 <;>
      simp only [hm, hm', dif_pos, dif_neg, not_false_eq_true] <;> rfl
  case true.true =>
    by_cases hm' : m' = 0
    · by_cases hm : m = 0 <;> simp only [hm, hm', dif_pos, dif_neg, not_false_eq_true] <;> rfl
    · have hm : m ≠ 0 := by
        rintro rfl
        have := hpos' hm'
        simp only [Nat.cast_zero, zero_mul] at hle
        linarith
      rw [dif_neg hm, dif_neg hm']
      have hlex := isLE_lex (lex_of_le h' h (neg_le_neg_iff.mp hle))
      change (((compare e e').then (compare m m')).swap).isLE = true
      rw [Ordering.swap_then, ← Std.OrientedCmp.eq_swap, ← Std.OrientedCmp.eq_swap]
      exact hlex

/-- Finite doubles are ordered as the numbers that they are. -/
theorem le_of_value_le (hx : x.isFinite = true) (hy : y.isFinite = true)
    (h : value x ≤ value y) : x ≤ y := by
  change decide (x.toModel.unpack.le y.toModel.unpack = true) = true
  rw [decide_eq_true_eq, unpack_eq hx, unpack_eq hy]
  rw [value_eq, value_eq] at h
  exact le_unpacked (Dyadic.fits hx) (Dyadic.fits hy) h

/-- Unpacked doubles are equal as numbers if they are the same number. -/
theorem beq_unpacked {s s' : Bool} {m m' : Nat} {e e' : Int} (h : Fits m e) (h' : Fits m' e') :
    (unpacked (signOf s) m e).beq (unpacked (signOf s') m' e') = true ↔
      (if s then -(m * 2 ^ e : ℚ) else m * 2 ^ e)
        = if s' then -(m' * 2 ^ e' : ℚ) else m' * 2 ^ e' := by
  have hpos : m ≠ 0 → (0 : ℚ) < m * 2 ^ e := fun hm => by positivity
  have hpos' : m' ≠ 0 → (0 : ℚ) < m' * 2 ^ e' := fun hm => by positivity
  rw [beq_iff_ne_notANumber_and_eq]
  unfold unpacked
  by_cases hm : m = 0 <;> by_cases hm' : m' = 0
  · cases s <;> cases s' <;> simp [hm, hm', signOf]
  · have := hpos' hm'
    cases s' <;> simp [hm, hm', this.ne, this.ne']
  · have := hpos hm
    cases s <;> simp [hm, hm', this.ne']
  · have := hpos hm
    have := hpos' hm'
    have hsame : m = m' ∧ e = e' ↔ (m * 2 ^ e : ℚ) = m' * 2 ^ e' :=
      ⟨fun heq => by rw [heq.1, heq.2], eq_of_eq h h'⟩
    cases s <;> cases s' <;> simp [hm, hm', signOf, hsame] <;> linarith

/-- Finite doubles are equal as numbers if they are the same number. -/
theorem beq_iff (hx : x.isFinite = true) (hy : y.isFinite = true) :
    (x == y) = true ↔ value x = value y := by
  change x.toModel.unpack.beq y.toModel.unpack = true ↔ _
  rw [unpack_eq hx, unpack_eq hy, value_eq, value_eq]
  exact beq_unpacked (Dyadic.fits hx) (Dyadic.fits hy)

/-- Compared the other way round, two doubles have the opposite order. -/
theorem compare_swap (a b : UnpackedFloat) : b.compare a = (a.compare b).map Ordering.swap := by
  cases a with
  | notANumber => cases b <;> rfl
  | infinity s =>
    cases b with
    | infinity s' => cases s <;> cases s' <;> rfl
    | notANumber | zero _ | finite _ _ _ _ => cases s <;> rfl
  | zero s =>
    cases b with
    | infinity s' | finite s' _ _ _ => cases s' <;> rfl
    | notANumber | zero _ => rfl
  | finite s m e h =>
    cases b with
    | notANumber | zero _ => cases s <;> rfl
    | infinity s' => cases s <;> cases s' <;> rfl
    | finite s' m' e' h' =>
      have he : compare e' e = (compare e e').swap := Std.OrientedCmp.eq_swap
      have hm : compare m' m = (compare m m').swap := Std.OrientedCmp.eq_swap
      cases s <;> cases s' <;>
        simp only [UnpackedFloat.compare, he, hm, Option.map_some, Ordering.swap_then,
          Ordering.swap_lt, Ordering.swap_gt, Ordering.swap_swap]

/-- Doubles of which neither is greater than the other are equal. -/
theorem beq_of_le_of_le {a b : UnpackedFloat} (h : a.le b = true) (h' : b.le a = true) :
    a.beq b = true := by
  unfold UnpackedFloat.le at h h'
  rw [compare_swap a b] at h'
  unfold UnpackedFloat.beq
  cases hcompare : a.compare b with
  | none =>
    rw [hcompare] at h
    cases h
  | some order =>
    rw [hcompare] at h h'
    cases order with
    | eq => rfl
    | lt => cases h'
    | gt => cases h

/-- Finite doubles are in order if and only if the numbers that they are are. -/
theorem le_iff (hx : x.isFinite = true) (hy : y.isFinite = true) :
    x ≤ y ↔ value x ≤ value y := by
  refine ⟨?_, le_of_value_le hx hy⟩
  intro h
  by_contra hlt
  have hge := le_of_value_le hy hx (not_le.mp hlt).le
  have hbeq : (x == y) = true := beq_of_le_of_le (of_decide_eq_true h) (of_decide_eq_true hge)
  exact hlt ((beq_iff hx hy).mp hbeq).le

theorem unpacked_inj {sign sign' : Sign} {m m' : Nat} {e e' : Int}
    (h : unpacked sign m e = unpacked sign' m' e') : sign = sign' ∧ m = m' ∧ (m ≠ 0 → e = e') := by
  unfold unpacked at h
  by_cases hm : m = 0 <;> by_cases hm' : m' = 0
  · rw [dif_pos hm, dif_pos hm'] at h
    cases h
    exact ⟨rfl, hm.trans hm'.symm, absurd hm⟩
  · rw [dif_pos hm, dif_neg hm'] at h
    cases h
  · rw [dif_neg hm, dif_pos hm'] at h
    cases h
  · rw [dif_neg hm, dif_neg hm'] at h
    cases h
    exact ⟨rfl, rfl, fun _ => rfl⟩

/-- A double that unpacks to a mantissa and an exponent is the number that these are. -/
theorem value_of_unpack {negative : Bool} {m : Nat} {e : Int}
    (h : x.toModel.unpack = unpacked (signOf negative) m e) :
    x.isFinite = true ∧ value x = (if negative then -1 else 1) * (m * 2 ^ e) := by
  have hfinite : x.isFinite = true := by
    change UnpackedFloat.isFinite x.toModel.unpack = true
    rw [h, unpacked]
    split <;> rfl
  obtain ⟨hsign, hmantissa, hexponent⟩ := unpacked_inj ((unpack_eq hfinite).symm.trans h)
  have hnegative : isNegative x = negative := by
    generalize isNegative x = s at hsign
    cases s <;> cases negative <;> first | rfl | cases hsign
  refine ⟨hfinite, ?_⟩
  rw [value, hnegative, hmantissa]
  by_cases hm : m = 0
  · rw [hm, Nat.cast_zero, zero_mul, zero_mul]
  · rw [hexponent (hmantissa ▸ hm)]

end ObjectStore.Decimal
