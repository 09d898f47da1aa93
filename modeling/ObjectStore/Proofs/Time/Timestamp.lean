import ObjectStore.Proofs.Decimal.Written
import ObjectStore.Proofs.Time.Calendar
import ObjectStore.Time.Timestamp

/-!
# Timestamps are read back

A written timestamp is a date, a time of day with any number of digits of a second, and an offset: a
text of RFC 3339. It names an instant, a rational number of seconds. Whatever offset and however
many digits a text has, its wire form is that of its instant, cut to the millisecond
(`canonical_text`), so two texts of one instant have one wire form, and a text in the wire form has
itself (`canonical_of_floor_eq`).
-/

namespace ObjectStore.Timestamp

open Decimal

/-- The distance of a clock from universal time: a letter for none, or a sign with hours and
minutes. -/
inductive Offset where
  | universal (letter : Char)
  | apart (behind : Bool) (hours minutes : Nat)

/-- A timestamp as it is written. -/
structure Written where
  year : Nat
  month : Nat
  day : Nat
  mark : Char
  hour : Nat
  minute : Nat
  second : Nat
  fraction : List Char
  offset : Offset

namespace Offset

/-- An offset is below a day. -/
def WellFormed : Offset → Prop
  | universal letter => letter = 'Z' ∨ letter = 'z'
  | apart _ hours minutes => hours ≤ 23 ∧ minutes ≤ 59

/-- The text of an offset. -/
def text : Offset → List Char
  | universal letter => [letter]
  | apart behind hours minutes =>
    (if behind then '-' else '+') :: (paddedDigits 2 hours ++ ':' :: paddedDigits 2 minutes)

/-- The seconds that a clock is ahead of universal time. -/
def seconds : Offset → Int
  | universal _ => 0
  | apart behind hours minutes =>
    (if behind then -1 else 1) * ((hours : Int) * 3600 + minutes * 60)

end Offset

namespace Written

/-- The date of a written timestamp. -/
def date (w : Written) : CivilDate := ⟨w.year, w.month, w.day⟩

/-- The parts of a timestamp are those of a calendar with years of four digits and of a clock. -/
structure WellFormed (w : Written) : Prop where
  isValid_date : w.date.isValid = true
  year_le : w.year ≤ 9999
  isMark : w.mark = 'T' ∨ w.mark = 't' ∨ w.mark = ' '
  hour_le : w.hour ≤ 23
  minute_le : w.minute ≤ 59
  second_le : w.second ≤ 59
  isDigit_fraction : ∀ c ∈ w.fraction, c.isDigit = true
  offset : w.offset.WellFormed

/-- The numbers of a timestamp fit into their places in the text. -/
structure Shaped (w : Written) : Prop where
  year_lt : w.year < 10 ^ 4
  month_lt : w.month < 10 ^ 2
  day_lt : w.day < 10 ^ 2
  mark_lt : w.mark.toNat < 128
  hour_lt : w.hour < 10 ^ 2
  minute_lt : w.minute < 10 ^ 2
  second_lt : w.second < 10 ^ 2
  isDigit_fraction : ∀ c ∈ w.fraction, c.isDigit = true
  offset : w.offset.WellFormed

/-- The parts of a well-formed timestamp fit into their places. -/
theorem WellFormed.shaped {w : Written} (h : w.WellFormed) : w.Shaped := by
  have hdate := CivilDate.isValid_bounds h.isValid_date
  have hyear := h.year_le
  have hhour := h.hour_le
  have hminute := h.minute_le
  have hsecond := h.second_le
  unfold date at hdate
  dsimp only at hdate
  refine ⟨by omega, by omega, by omega, ?_, by omega, by omega, by omega, h.isDigit_fraction,
    h.offset⟩
  rcases h.isMark with hmark | hmark | hmark <;> rw [hmark] <;> decide

/-- The text of a timestamp. -/
def text (w : Written) : List Char :=
  paddedDigits 4 w.year ++ '-' :: (paddedDigits 2 w.month ++ '-' :: (paddedDigits 2 w.day
    ++ w.mark :: (paddedDigits 2 w.hour ++ ':' :: (paddedDigits 2 w.minute
      ++ ':' :: (paddedDigits 2 w.second
        ++ ((if w.fraction = [] then [] else '.' :: w.fraction) ++ w.offset.text))))))

/-- The whole seconds that the clock shows. -/
def wholeSeconds (w : Written) : Int :=
  w.date.dayNumber * secondsPerDay + w.hour * 3600 + w.minute * 60 + w.second

/-- The instant that a timestamp names, in seconds of universal time from the start of 1970. -/
def instant (w : Written) : ℚ :=
  w.wholeSeconds - w.offset.seconds + ofDigits w.fraction / 10 ^ w.fraction.length

end Written

/-! ## Digits -/

variable {w : Written} {rest : List Char} {n width : Nat}

/-- Padded digits are as many as there are places. -/
theorem length_paddedDigits (width n : Nat) : (paddedDigits width n).length = width := by
  induction width generalizing n with
  | zero => rfl
  | succ width ih => rw [paddedDigits, List.length_append, ih, List.length_singleton]

/-- Padded digits are digits. -/
theorem isDigit_of_mem_paddedDigits (width n : Nat) :
    ∀ c ∈ paddedDigits width n, c.isDigit = true := by
  induction width generalizing n with
  | zero => rintro c ⟨⟩
  | succ width ih =>
    intro c hc
    rcases List.mem_append.mp hc with hc | hc
    · exact ih _ c hc
    · rw [List.mem_singleton.mp hc]
      rw [Nat.isDigit_digitChar]
      exact decide_eq_true (Nat.mod_lt n (by decide))

/-- A number that fits into its places is read back from its padded digits. -/
theorem ofDigits_paddedDigits (h : n < 10 ^ width) : ofDigits (paddedDigits width n) = n := by
  induction width generalizing n with
  | zero => exact (Nat.lt_one_iff.mp h).symm
  | succ width ih =>
    have hlast : ofDigits [Nat.digitChar (n % 10)] = n % 10 := by
      rw [ofDigits_eq, Nat.ofDigitChars_cons_digitChar_of_lt_ten (Nat.mod_lt n (by decide))]
      simp
    rw [paddedDigits, ofDigits_append, ih (by rw [pow_succ] at h; omega), hlast]
    simp only [List.length_singleton]
    omega

/-- A number that fits into its places is read, and what is behind it is left. -/
theorem readDigits?_paddedDigits (h : n < 10 ^ width) (rest : List Char) :
    readDigits? width (paddedDigits width n ++ rest) = some (n, rest) := by
  have hlength := length_paddedDigits width n
  have hall : (paddedDigits width n).all Char.isDigit = true :=
    List.all_eq_true.mpr (isDigit_of_mem_paddedDigits width n)
  unfold readDigits?
  rw [List.take_left' hlength, List.drop_left' hlength]
  dsimp only
  rw [hlength, hall, ofDigits_paddedDigits h, decide_eq_true rfl, Bool.and_self, if_pos rfl]

/-! ## Fractions of a second -/

/-- A digit stands for nine at most. -/
theorem digitValue_le {c : Char} (h : c.isDigit = true) : digitValue c ≤ 9 := by
  rw [Char.isDigit, Bool.and_eq_true, decide_eq_true_iff, decide_eq_true_iff] at h
  have hnine : c.toNat ≤ 57 := h.2
  have hzero : '0'.toNat = 48 := rfl
  rw [digitValue, hzero]
  omega

/-- Some digits stand for less than the power of ten for their number. -/
theorem ofDigits_lt {digits : List Char} (h : ∀ c ∈ digits, c.isDigit = true) :
    ofDigits digits < 10 ^ digits.length := by
  induction digits with
  | nil => decide
  | cons c rest ih =>
    obtain ⟨hc, hrest⟩ := List.forall_mem_cons.mp h
    have hfirst : ofDigits [c] ≤ 9 := by
      have hsingle : ofDigits [c] = 10 * 0 + digitValue c := rfl
      have hle := digitValue_le hc
      omega
    have hcons : ofDigits (c :: rest) = 10 ^ rest.length * ofDigits [c] + ofDigits rest :=
      ofDigits_append [c] rest
    calc ofDigits (c :: rest) = 10 ^ rest.length * ofDigits [c] + ofDigits rest := hcons
      _ < 10 ^ rest.length * 9 + 10 ^ rest.length := by
        have := ih hrest
        have := Nat.mul_le_mul_left (10 ^ rest.length) hfirst
        omega
      _ = 10 ^ (rest.length + 1) := by ring

/-- The digits of a fraction of a second count for nanoseconds, cut to whole ones. -/
theorem fractionNanos_eq {digits : List Char} (h : ∀ c ∈ digits, c.isDigit = true) :
    fractionNanos digits = ⌊(ofDigits digits / 10 ^ digits.length : ℚ) * 10 ^ 9⌋ := by
  unfold fractionNanos
  dsimp only
  rw [Nat.pow_eq, eq_comm]
  rcases Nat.le_total digits.length 9 with hle | hge
  · have hten : (10 : ℚ) ^ 9 = 10 ^ digits.length * 10 ^ (9 - digits.length) := by
      rw [← pow_add]
      congr 1
      omega
    have hwhole : (ofDigits digits / 10 ^ digits.length : ℚ) * 10 ^ 9
        = (ofDigits digits * 10 ^ (9 - digits.length) : Nat) := by
      rw [hten, ← mul_assoc, div_mul_cancel₀ _ (by positivity)]
      push_cast
      rfl
    rw [List.take_of_length_le hle, hwhole, Int.floor_natCast]
  · -- what is behind the ninth digit is less than a nanosecond
    have hlength : (digits.take 9).length = 9 := by
      rw [List.length_take]
      omega
    have hrest : ofDigits (digits.drop 9) < 10 ^ (digits.drop 9).length :=
      ofDigits_lt fun c hc => h c (List.mem_of_mem_drop hc)
    have hten : (10 : ℚ) ^ digits.length = 10 ^ (digits.drop 9).length * 10 ^ 9 := by
      rw [← pow_add, List.length_drop]
      congr 1
      omega
    have hvalue : (ofDigits digits / 10 ^ digits.length : ℚ) * 10 ^ 9
        = ofDigits (digits.take 9) + ofDigits (digits.drop 9) / 10 ^ (digits.drop 9).length := by
      have hsplit := ofDigits_append (digits.take 9) (digits.drop 9)
      rw [List.take_append_drop] at hsplit
      rw [hten, hsplit]
      push_cast
      field_simp
    have hsmall : (ofDigits (digits.drop 9) : ℚ) / 10 ^ (digits.drop 9).length < 1 := by
      rw [div_lt_one (by positivity)]
      exact_mod_cast hrest
    have hnonneg : (0 : ℚ) ≤ ofDigits (digits.drop 9) / 10 ^ (digits.drop 9).length := by
      positivity
    rw [hlength, Nat.sub_self, pow_zero, mul_one, hvalue, Int.floor_eq_iff]
    push_cast
    constructor
    · linarith
    · linarith

/-- A fraction is read up to the offset, and if there is none it counts as zero. -/
theorem readFraction?_append (hw : w.Shaped) :
    readFraction? ((if w.fraction = [] then [] else '.' :: w.fraction) ++ w.offset.text)
      = some (fractionNanos w.fraction, w.offset.text) := by
  have hoffset := hw.offset
  -- an offset begins with no digit and no point, so the fraction ends before it
  have hhead : ∀ c ∈ w.offset.text.head?, c.isDigit = false ∧ c ≠ '.' := by
    intro c hc
    cases hw' : w.offset with
    | universal letter =>
      rw [hw'] at hc hoffset
      cases hc
      rcases hoffset with rfl | rfl <;> decide
    | apart behind hours minutes =>
      rw [hw'] at hc
      cases hc
      cases behind <;> decide
  split
  next hempty =>
    rw [List.nil_append, hempty, readFraction?]
    · rfl
    · intro s hpoint
      rw [hpoint] at hhead
      exact (hhead '.' rfl).2 rfl
  next hne =>
    have htake := takeDigits_append hw.isDigit_fraction fun c hc => (hhead c hc).1
    rw [List.cons_append, readFraction?, htake]
    dsimp only
    rw [List.isEmpty_eq_false_iff.mpr hne, if_neg Bool.false_ne_true]

/-- An offset is read back. -/
theorem readOffset?_text (hw : w.Shaped) :
    readOffset? w.offset.text = some w.offset.seconds := by
  have hoffset := hw.offset
  cases hw' : w.offset with
  | universal letter =>
    rw [hw'] at hoffset
    exact if_pos hoffset
  | apart behind hours minutes =>
    rw [hw'] at hoffset
    obtain ⟨hhours, hminutes⟩ := hoffset
    have hread : readDigits? 2 (paddedDigits 2 hours ++ ':' :: paddedDigits 2 minutes)
        = some (hours, ':' :: paddedDigits 2 minutes) := readDigits?_paddedDigits (by omega) _
    have hread' : readDigits? 2 (paddedDigits 2 minutes) = some (minutes, []) := by
      have hnil := @readDigits?_paddedDigits minutes 2 (by omega) []
      rw [List.append_nil] at hnil
      exact hnil
    have hbounds : hours ≤ 23 ∧ minutes ≤ 59 ∧ ([] : List Char).isEmpty = true :=
      ⟨hhours, hminutes, rfl⟩
    rw [Offset.text, readOffset?]
    · cases behind with
      | true =>
        simp only [hread, hread', readChar?, Option.bind_eq_bind, Option.bind_some, if_true,
          if_pos hbounds]
        rfl
      | false =>
        simp only [hread, hread', readChar?, Option.bind_eq_bind, Option.bind_some, if_true,
          if_pos hbounds]
        rfl
    · rintro ⟨⟩

/-- A mark is read where it is expected. -/
theorem readChar?_cons (c : Char) (rest : List Char) : readChar? c (c :: rest) = some rest :=
  if_pos rfl

/-- What stands between date and time is any one ASCII character. -/
theorem readMark?_cons {c : Char} (h : c.toNat < 128) (rest : List Char) :
    readMark? (c :: rest) = some rest := if_pos h

/-- A reading that succeeds goes on with what it read. -/
theorem bind_of_read {α β : Type} {x : Option α} {a : α} {f : α → Option β} {b : Option β}
    (hx : x = some a) (h : f a = b) : x.bind f = b := by
  rw [hx]
  exact h

/-- A text is read part by part. -/
theorem ofIso?_of_shaped (hw : w.Shaped) : ofIso? (String.ofList w.text)
    = ofParts? w.date w.hour w.minute w.second (fractionNanos w.fraction) w.offset.seconds := by
  unfold ofIso?
  rw [String.toList_ofList, Written.text]
  refine bind_of_read (readDigits?_paddedDigits hw.year_lt _) (bind_of_read (readChar?_cons _ _) ?_)
  refine bind_of_read (readDigits?_paddedDigits hw.month_lt _)
    (bind_of_read (readChar?_cons _ _) ?_)
  refine bind_of_read (readDigits?_paddedDigits hw.day_lt _)
    (bind_of_read (readMark?_cons hw.mark_lt _) ?_)
  refine bind_of_read (readDigits?_paddedDigits hw.hour_lt _) (bind_of_read (readChar?_cons _ _) ?_)
  refine bind_of_read (readDigits?_paddedDigits hw.minute_lt _)
    (bind_of_read (readChar?_cons _ _) ?_)
  refine bind_of_read (readDigits?_paddedDigits hw.second_lt _) ?_
  exact bind_of_read (readFraction?_append hw) (bind_of_read (readOffset?_text hw) rfl)

/-- The clock reading and the offset of a written timestamp. -/
theorem ofIso?_text (hw : w.WellFormed) : ofIso? (String.ofList w.text)
    = some ⟨w.wholeSeconds * nanosPerSecond + fractionNanos w.fraction, w.offset.seconds⟩ := by
  have hclock : w.date.isValid = true ∧ w.hour ≤ 23 ∧ w.minute ≤ 59 ∧ w.second ≤ 59 :=
    ⟨hw.isValid_date, hw.hour_le, hw.minute_le, hw.second_le⟩
  have hleap : ¬ w.second = 60 := by
    have hsecond := hw.second_le
    omega
  rw [ofIso?_of_shaped hw.shaped, ofParts?]
  simp only [hleap, if_false, false_and, if_pos hclock]
  rfl

/-! ## The wire form -/

/-- A timestamp to the millisecond, by a clock of universal time. -/
structure Written.IsWire (w : Written) : Prop extends w.WellFormed where
  mark_eq : w.mark = 'T'
  length_fraction : w.fraction.length = 3
  offset_eq : w.offset = .universal 'Z'

/-- A digit is the digit of what it stands for. -/
theorem digitChar_digitValue {c : Char} (h : c.isDigit = true) :
    Nat.digitChar (digitValue c) = c := by
  rw [Char.isDigit, Bool.and_eq_true, decide_eq_true_iff, decide_eq_true_iff] at h
  have hleast : 48 ≤ c.toNat := h.1
  have hgreatest : c.toNat ≤ 57 := h.2
  have hchar := Char.ofNat_toNat c
  unfold digitValue
  generalize c.toNat = n at *
  subst hchar
  -- there are ten digits
  interval_cases n <;> decide

/-- Digits are written back as they were read, with the zeroes before them. -/
theorem paddedDigits_ofDigits {digits : List Char} (h : ∀ c ∈ digits, c.isDigit = true) :
    paddedDigits digits.length (ofDigits digits) = digits := by
  induction digits using List.reverseRecOn with
  | nil => rfl
  | append_singleton digits c ih =>
    have hc := h c (List.mem_append_right _ (List.mem_singleton_self c))
    have hdigits := ih fun c hc => h c (List.mem_append_left _ hc)
    have hle := digitValue_le hc
    have hlast : ofDigits (digits ++ [c]) = 10 * ofDigits digits + digitValue c := by
      rw [ofDigits_append]
      have hsingle : ofDigits [c] = 10 * 0 + digitValue c := rfl
      rw [hsingle, List.length_singleton]
      omega
    have hdiv : (10 * ofDigits digits + digitValue c) / 10 = ofDigits digits := by omega
    have hmod : (10 * ofDigits digits + digitValue c) % 10 = digitValue c := by omega
    rw [List.length_append, List.length_singleton, paddedDigits, hlast, hdiv, hmod, hdigits,
      digitChar_digitValue hc]

/-- The moment of a written timestamp is its instant in nanoseconds, cut to whole ones. -/
theorem floor_instant (hw : w.WellFormed) : ⌊w.instant * 10 ^ 9⌋
    = (w.wholeSeconds - w.offset.seconds) * nanosPerSecond + fractionNanos w.fraction := by
  have hsplit : w.instant * 10 ^ 9
      = (((w.wholeSeconds - w.offset.seconds) * nanosPerSecond : Int) : ℚ)
        + (ofDigits w.fraction / 10 ^ w.fraction.length : ℚ) * 10 ^ 9 := by
    rw [Written.instant, nanosPerSecond]
    push_cast
    ring
  rw [hsplit, Int.floor_intCast_add, fractionNanos_eq hw.isDigit_fraction]

/-- The wire form of a text is that of its instant, cut to the nanosecond. -/
theorem canonical_text (hw : w.WellFormed) (h : inCalendar ⌊w.instant * 10 ^ 9⌋ = true) :
    canonical (String.ofList w.text) = .ok (isoText ⌊w.instant * 10 ^ 9⌋) := by
  have hutc : utc ⟨w.wholeSeconds * nanosPerSecond + fractionNanos w.fraction, w.offset.seconds⟩
      = ⌊w.instant * 10 ^ 9⌋ := by
    rw [floor_instant hw, utc]
    ring
  rw [canonical, parse, ofIso?_text hw]
  change toIso _ = _
  rw [toIso, hutc, if_pos h]

/-- The days of the years of four digits lie in the calendar. -/
theorem inCalendar_of_dayNumber {day rest : Int} (hday : -719528 ≤ day ∧ day < 2932897)
    (hrest : 0 ≤ rest ∧ rest < secondsPerDay * nanosPerSecond) :
    inCalendar (day * secondsPerDay * nanosPerSecond + rest) = true := by
  have hfirst : firstWall = -4371587 * secondsPerDay * nanosPerSecond := by decide
  have hend : endWall = 2932897 * secondsPerDay * nanosPerSecond := by decide
  rw [inCalendar, hfirst, hend, Bool.and_eq_true, decide_eq_true_iff, decide_eq_true_iff]
  unfold secondsPerDay nanosPerSecond at *
  omega

/-- The seconds of the day that the clock shows. -/
def Written.clock (w : Written) : Nat := w.hour * 3600 + w.minute * 60 + w.second

/-- The moment of a text in the wire form, by its day, the time of day and the milliseconds. -/
theorem floor_instant_of_isWire (hw : w.IsWire) : ⌊w.instant * 10 ^ 9⌋
    = (w.date.dayNumber * secondsPerDay + w.clock) * nanosPerSecond
      + ofDigits w.fraction * 1000000 := by
  have hnanos : fractionNanos w.fraction = ofDigits w.fraction * 1000000 := by
    unfold fractionNanos
    dsimp only
    rw [List.take_of_length_le (by rw [hw.length_fraction]; decide), hw.length_fraction]
    push_cast
    rfl
  rw [floor_instant hw.toWellFormed, hw.offset_eq, hnanos, Written.wholeSeconds, Written.clock,
    Offset.seconds]
  push_cast
  ring

/-- The clock shows less than a day. -/
theorem clock_lt (hw : w.WellFormed) : w.clock < 86400 := by
  have hhour := hw.hour_le
  have hminute := hw.minute_le
  have hsecond := hw.second_le
  unfold Written.clock
  omega

/-- Three digits of a fraction are less than a second of milliseconds. -/
theorem millis_lt (hw : w.IsWire) : ofDigits w.fraction < 1000 := by
  have hlt := ofDigits_lt hw.isDigit_fraction
  rw [hw.length_fraction] at hlt
  exact hlt

/-- A text in the wire form names a moment in the calendar. -/
theorem inCalendar_of_isWire (hw : w.IsWire) : inCalendar ⌊w.instant * 10 ^ 9⌋ = true := by
  have hbounds := CivilDate.dayNumber_bounds hw.isValid_date (Int.natCast_nonneg _)
    (Int.ofNat_le.mpr hw.year_le)
  have hclock := clock_lt hw.toWellFormed
  have hmillis := millis_lt hw
  rw [floor_instant_of_isWire hw, add_mul, add_assoc]
  refine inCalendar_of_dayNumber hbounds ?_
  unfold secondsPerDay nanosPerSecond
  omega

/-- The wire form of a moment, by its day, the time of day and the milliseconds. -/
theorem isoText_eq (day : Int) {clock millis : Nat} (hclock : clock < 86400)
    (hmillis : millis < 1000) :
    isoText ((day * secondsPerDay + clock) * nanosPerSecond + millis * 1000000) = String.ofList
      (yearText (CivilDate.ofDayNumber day).year
        ++ '-' :: paddedDigits 2 (CivilDate.ofDayNumber day).month
        ++ '-' :: paddedDigits 2 (CivilDate.ofDayNumber day).day
        ++ 'T' :: paddedDigits 2 (clock / 3600) ++ ':' :: paddedDigits 2 (clock / 60 % 60)
        ++ ':' :: paddedDigits 2 (clock % 60) ++ '.' :: paddedDigits 3 millis ++ ['Z']) := by
  have hseconds : ((day * secondsPerDay + clock) * nanosPerSecond + millis * 1000000)
      / nanosPerSecond = day * secondsPerDay + clock := by
    unfold nanosPerSecond
    omega
  have hrest : (((day * secondsPerDay + clock) * nanosPerSecond + millis * 1000000)
      % nanosPerSecond / 1000000).toNat = millis := by
    unfold nanosPerSecond
    omega
  have hday : (day * secondsPerDay + clock) / secondsPerDay = day := by
    unfold secondsPerDay
    omega
  have hofDay : ((day * secondsPerDay + clock) % secondsPerDay).toNat = clock := by
    unfold secondsPerDay
    omega
  unfold isoText
  dsimp only
  rw [hseconds, hrest, hday, hofDay]

/-- A text in the wire form is the wire form of its moment. -/
theorem isoText_of_isWire (hw : w.IsWire) :
    isoText ⌊w.instant * 10 ^ 9⌋ = String.ofList w.text := by
  have hminute := hw.minute_le
  have hsecond := hw.second_le
  have hparts : w.clock / 3600 = w.hour ∧ w.clock / 60 % 60 = w.minute
      ∧ w.clock % 60 = w.second := by
    unfold Written.clock
    omega
  have hfraction := paddedDigits_ofDigits hw.isDigit_fraction
  rw [hw.length_fraction] at hfraction
  have hne : w.fraction ≠ [] := by
    rw [← List.length_pos_iff, hw.length_fraction]
    decide
  have hyear : yearText w.date.year = paddedDigits 4 w.year :=
    if_neg (not_lt.mpr (Int.natCast_nonneg w.year))
  rw [floor_instant_of_isWire hw, isoText_eq _ (clock_lt hw.toWellFormed) (millis_lt hw),
    CivilDate.ofDayNumber_dayNumber hw.isValid_date, hparts.1, hparts.2.1, hparts.2.2, hfraction,
    hyear, Written.text, hw.mark_eq, if_neg hne, hw.offset_eq]
  simp only [List.append_assoc, List.cons_append]
  rfl

/-- A text names one moment, however its parts are told apart. -/
theorem floor_instant_of_text_eq {v : Written} (hv : v.WellFormed) (hw : w.WellFormed)
    (h : v.text = w.text) : ⌊v.instant * 10 ^ 9⌋ = ⌊w.instant * 10 ^ 9⌋ := by
  have hread : some (⟨_, _⟩ : Timestamp) = some ⟨_, _⟩ :=
    (ofIso?_text hv).symm.trans (h ▸ ofIso?_text hw)
  have hutc := congrArg utc (Option.some.inj hread)
  rw [floor_instant hv, floor_instant hw]
  unfold utc at hutc
  dsimp only at hutc
  rw [sub_mul, sub_mul]
  omega

/-- Whatever its offset and its digits, a text of the moment of a text in the wire form has this
text as its wire form. -/
theorem canonical_of_floor_eq {v : Written} (hv : v.IsWire) (hw : w.WellFormed)
    (h : ⌊w.instant * 10 ^ 9⌋ = ⌊v.instant * 10 ^ 9⌋) :
    canonical (String.ofList w.text) = .ok (String.ofList v.text) := by
  have hcalendar := inCalendar_of_isWire hv
  rw [← isoText_of_isWire hv, ← h]
  rw [← h] at hcalendar
  exact canonical_text hw hcalendar

end ObjectStore.Timestamp
