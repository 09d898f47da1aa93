import ObjectStore.Proofs.Result
import ObjectStore.Proofs.Time.Timestamp

/-!
# Wire dates are canonical

Whatever text of an instant is read, what is written is a text in the wire form, and it names the
instant cut to the millisecond (`Timestamp.wire_canonical`). The texts in the wire form come in the
order of their instants (`Timestamp.millis_lt_of_text_lt`).

A text that is read is the text of some written numbers, which are then read back: what the reader
takes off the text is what the writer would put there (`Timestamp.exists_shaped`). So the instant of
the text can be named (`Timestamp.Names`) without reference to the reader.
-/

namespace ObjectStore.Timestamp

open Decimal

variable {s rest : List Char} {n width : Nat} {nanos seconds : Int} {c : Char} {w v : Written}
  {t : Timestamp}

/-! ## What is read was written -/

/-- Digits that are read are the digits of the number, in their width. -/
theorem eq_append_of_readDigits? (h : readDigits? width s = some (n, rest)) :
    s = paddedDigits width n ++ rest ∧ n < 10 ^ width := by
  unfold readDigits? at h
  dsimp only at h
  split at h
  next hdigits =>
    cases h
    rw [Bool.and_eq_true, decide_eq_true_iff, List.all_eq_true] at hdigits
    obtain ⟨hlength, hall⟩ := hdigits
    have htake := paddedDigits_ofDigits hall
    have hlt := ofDigits_lt hall
    rw [hlength] at htake hlt
    rw [htake, List.take_append_drop]
    exact ⟨rfl, hlt⟩
  next => cases h

/-- A character that is read stood first. -/
theorem eq_cons_of_readChar? (h : readChar? c s = some rest) : s = c :: rest := by
  cases s with
  | nil => cases h
  | cons d tail =>
    rw [readChar?] at h
    split at h
    next hc =>
      cases h
      rw [hc]
    next => cases h

/-- A mark that is read is one character of one byte. -/
theorem eq_cons_of_readMark? (h : readMark? s = some rest) :
    ∃ c, s = c :: rest ∧ c.toNat < 128 := by
  cases s with
  | nil => cases h
  | cons d tail =>
    obtain ⟨hd, h⟩ := Option.ite_none_right_eq_some.mp h
    cases h
    exact ⟨d, rfl, hd⟩

/-- A fraction that is read is a point with digits behind it, or nothing at all. -/
theorem eq_append_of_readFraction? (h : readFraction? s = some (nanos, rest)) :
    ∃ fraction, s = (if fraction = [] then [] else '.' :: fraction) ++ rest
      ∧ nanos = fractionNanos fraction ∧ ∀ c ∈ fraction, c.isDigit = true := by
  by_cases hpoint : ∃ tail, s = '.' :: tail
  · obtain ⟨tail, rfl⟩ := hpoint
    rw [readFraction?] at h
    dsimp only at h
    obtain ⟨hne, h⟩ := Option.ite_none_left_eq_some.mp h
    cases h
    refine ⟨(takeDigits tail).1, ?_, rfl, fun c hc => List.mem_takeWhile_imp hc⟩
    rw [if_neg fun hnil => hne (List.isEmpty_iff.mpr hnil), List.cons_append, takeDigits,
      List.takeWhile_append_dropWhile]
  · rw [readFraction?] at h
    · cases h
      exact ⟨[], rfl, rfl, List.forall_mem_nil _⟩
    · exact fun tail heq => hpoint ⟨tail, heq⟩

/-- What is read behind the sign of an offset. -/
theorem eq_append_of_clock {sign : Int} (h : (do
      let (hours, rest) ← readDigits? 2 rest
      let rest ← readChar? ':' rest
      let (minutes, rest) ← readDigits? 2 rest
      if hours ≤ 23 ∧ minutes ≤ 59 ∧ rest.isEmpty then
        some (sign * ((hours : Int) * 3600 + minutes * 60))
      else none) = some seconds) :
    ∃ hours minutes : Nat, (hours ≤ 23 ∧ minutes ≤ 59)
      ∧ rest = paddedDigits 2 hours ++ ':' :: paddedDigits 2 minutes
      ∧ seconds = sign * ((hours : Int) * 3600 + minutes * 60) := by
  obtain ⟨⟨hours, s₁⟩, hhours, h⟩ := Option.bind_eq_some_iff.mp h
  obtain ⟨s₂, hcolon, h⟩ := Option.bind_eq_some_iff.mp h
  obtain ⟨⟨minutes, s₃⟩, hminutes, h⟩ := Option.bind_eq_some_iff.mp h
  obtain ⟨⟨hhours_le, hminutes_le, hend⟩, h⟩ := Option.ite_none_right_eq_some.mp h
  refine ⟨hours, minutes, ⟨hhours_le, hminutes_le⟩, ?_, (Option.some.inj h).symm⟩
  rw [(eq_append_of_readDigits? hhours).1, eq_cons_of_readChar? hcolon,
    (eq_append_of_readDigits? hminutes).1, List.isEmpty_iff.mp hend, List.append_nil]

/-- An offset that is read is the text of one. -/
theorem eq_text_of_readOffset? (h : readOffset? s = some seconds) :
    ∃ offset : Offset, offset.WellFormed ∧ s = offset.text ∧ seconds = offset.seconds := by
  unfold readOffset? at h
  split at h
  next letter =>
    obtain ⟨hletter, h⟩ := Option.ite_none_right_eq_some.mp h
    cases h
    exact ⟨.universal letter, hletter, rfl, rfl⟩
  next c rest _ =>
    dsimp only at h
    split at h
    next hplus =>
      obtain ⟨hours, minutes, hbounds, hrest, hseconds⟩ := eq_append_of_clock h
      exact ⟨.apart false hours minutes, hbounds, by rw [hplus, hrest]; rfl, hseconds⟩
    next =>
      split at h
      next hminus =>
        obtain ⟨hours, minutes, hbounds, hrest, hseconds⟩ := eq_append_of_clock h
        exact ⟨.apart true hours minutes, hbounds, by rw [hminus, hrest]; rfl, hseconds⟩
      next => cases h
  next => cases h

/-- Every text that is read is that of a written timestamp. -/
theorem exists_shaped {text : String} (h : ofIso? text = some t) : ∃ w : Written, w.Shaped
    ∧ text = String.ofList w.text ∧ ofParts? w.date w.hour w.minute w.second
      (fractionNanos w.fraction) w.offset.seconds = some t := by
  unfold ofIso? at h
  obtain ⟨⟨year, s₁⟩, hyear, h⟩ := Option.bind_eq_some_iff.mp h
  obtain ⟨s₂, hdash, h⟩ := Option.bind_eq_some_iff.mp h
  obtain ⟨⟨month, s₃⟩, hmonth, h⟩ := Option.bind_eq_some_iff.mp h
  obtain ⟨s₄, hdash', h⟩ := Option.bind_eq_some_iff.mp h
  obtain ⟨⟨day, s₅⟩, hday, h⟩ := Option.bind_eq_some_iff.mp h
  obtain ⟨s₆, hmark, h⟩ := Option.bind_eq_some_iff.mp h
  obtain ⟨⟨hour, s₇⟩, hhour, h⟩ := Option.bind_eq_some_iff.mp h
  obtain ⟨s₈, hcolon, h⟩ := Option.bind_eq_some_iff.mp h
  obtain ⟨⟨minute, s₉⟩, hminute, h⟩ := Option.bind_eq_some_iff.mp h
  obtain ⟨s₁₀, hcolon', h⟩ := Option.bind_eq_some_iff.mp h
  obtain ⟨⟨second, s₁₁⟩, hsecond, h⟩ := Option.bind_eq_some_iff.mp h
  obtain ⟨⟨nanos, s₁₂⟩, hfraction, h⟩ := Option.bind_eq_some_iff.mp h
  obtain ⟨seconds, hoffset, h⟩ := Option.bind_eq_some_iff.mp h
  obtain ⟨hyear, hyear_lt⟩ := eq_append_of_readDigits? hyear
  obtain ⟨hmonth, hmonth_lt⟩ := eq_append_of_readDigits? hmonth
  obtain ⟨hday, hday_lt⟩ := eq_append_of_readDigits? hday
  obtain ⟨mark, hmark, hmark_lt⟩ := eq_cons_of_readMark? hmark
  obtain ⟨hhour, hhour_lt⟩ := eq_append_of_readDigits? hhour
  obtain ⟨hminute, hminute_lt⟩ := eq_append_of_readDigits? hminute
  obtain ⟨hsecond, hsecond_lt⟩ := eq_append_of_readDigits? hsecond
  obtain ⟨fraction, hfraction_text, rfl, hdigits⟩ := eq_append_of_readFraction? hfraction
  obtain ⟨offset, hoffset_wf, rfl, rfl⟩ := eq_text_of_readOffset? hoffset
  refine ⟨⟨year, month, day, mark, hour, minute, second, fraction, offset⟩,
    ⟨hyear_lt, hmonth_lt, hday_lt, hmark_lt, hhour_lt, hminute_lt, hsecond_lt, hdigits, hoffset_wf⟩,
    ?_, h⟩
  rw [← String.ofList_toList (s := text), hyear, eq_cons_of_readChar? hdash, hmonth,
    eq_cons_of_readChar? hdash', hday, hmark, hhour, eq_cons_of_readChar? hcolon, hminute,
    eq_cons_of_readChar? hcolon', hsecond, hfraction_text]
  rfl

/-! ## The instant of a text -/

/-- What a written timestamp counts as: a leap second is the last nanosecond of its minute. -/
def Written.counted (w : Written) : Written :=
  if w.second = 60 then { w with mark := 'T', second := 59, fraction := List.replicate 9 '9' }
  else { w with mark := 'T' }

/-- A written timestamp with any mark of a single byte, and possibly with a leap second. -/
structure Written.Readable (w : Written) : Prop extends w.Shaped where
  counted : w.counted.WellFormed

/-- A text names an instant, in seconds of universal time from the start of 1970. -/
def Names (text : String) (instant : ℚ) : Prop :=
  ∃ w : Written, w.Readable ∧ text = String.ofList w.text ∧ instant = w.counted.instant

/-- The parts of a timestamp that is read are those of what it counts as. -/
theorem ofParts?_eq_some (hw : w.Shaped) (h : ofParts? w.date w.hour w.minute w.second
      (fractionNanos w.fraction) w.offset.seconds = some t) : w.counted.WellFormed
    ∧ t = ⟨w.counted.wholeSeconds * nanosPerSecond + fractionNanos w.counted.fraction,
      w.counted.offset.seconds⟩ := by
  have hyear : w.year ≤ 9999 := by
    have hlt := hw.year_lt
    omega
  have hmark : 'T' = 'T' ∨ 'T' = 't' ∨ 'T' = ' ' := .inl rfl
  rw [ofParts?] at h
  dsimp only at h
  obtain ⟨⟨hdate, hhour, hminute, hsecond⟩, h⟩ := Option.ite_none_right_eq_some.mp h
  obtain ⟨-, h⟩ := Option.ite_none_left_eq_some.mp h
  unfold Written.counted
  split
  next hleap =>
    have hnines : ∀ c ∈ List.replicate 9 '9', c.isDigit = true :=
      fun c hc => List.eq_of_mem_replicate hc ▸ rfl
    have hnanos : fractionNanos (List.replicate 9 '9') = nanosPerSecond - 1 := by decide +kernel
    simp only [hleap, if_true] at h
    refine ⟨⟨hdate, hyear, hmark, hhour, hminute, le_refl 59, hnines, hw.offset⟩, ?_⟩
    rw [hnanos]
    exact (Option.some.inj h).symm
  next hleap =>
    simp only [hleap, if_false] at h hsecond
    exact ⟨⟨hdate, hyear, hmark, hhour, hminute, hsecond, hw.isDigit_fraction, hw.offset⟩,
      (Option.some.inj h).symm⟩

/-- A text that is read names an instant. -/
theorem exists_names {text : String} (h : ofIso? text = some t) :
    ∃ instant, Names text instant := by
  obtain ⟨w, hw, rfl, hparts⟩ := exists_shaped h
  exact ⟨_, w, ⟨hw, (ofParts?_eq_some hw hparts).1⟩, rfl, rfl⟩

/-- The moment that is read is the instant of the text in nanoseconds, cut to whole ones. -/
theorem utc_eq_floor {text : String} {instant : ℚ} (h : ofIso? text = some t)
    (hnames : Names text instant) : t.utc = ⌊instant * 10 ^ 9⌋ := by
  obtain ⟨w, hw, rfl, rfl⟩ := hnames
  rw [ofIso?_of_shaped hw.toShaped] at h
  obtain ⟨hcounted, rfl⟩ := ofParts?_eq_some hw.toShaped h
  rw [floor_instant hcounted, utc]
  ring

/-! ## The wire form of a moment -/

/-- The milliseconds of universal time up to a timestamp in the wire form. -/
def Written.millis (w : Written) : Int :=
  (w.date.dayNumber * secondsPerDay + w.clock) * 1000 + ofDigits w.fraction

/-- In the wire form an instant is a whole number of milliseconds. -/
theorem instant_of_isWire (hw : w.IsWire) : w.instant = w.millis / 1000 := by
  rw [Written.instant, hw.offset_eq, hw.length_fraction, Written.millis, Written.wholeSeconds,
    Written.clock, Offset.seconds]
  push_cast
  ring

/-- An instant lies in the years 0000 to 9999. -/
def InYears (instant : ℚ) : Prop :=
  (CivilDate.dayNumber ⟨0, 1, 1⟩ * secondsPerDay : Int) ≤ instant
    ∧ instant < (CivilDate.dayNumber ⟨10000, 1, 1⟩ * secondsPerDay : Int)

/-- What is below a millisecond is not written. -/
theorem isoText_cut (utc : Int) : isoText (utc / 1000000 * 1000000) = isoText utc := by
  have hseconds : utc / 1000000 * 1000000 / nanosPerSecond = utc / nanosPerSecond := by
    unfold nanosPerSecond
    omega
  have hmillis : utc / 1000000 * 1000000 % nanosPerSecond / 1000000
      = utc % nanosPerSecond / 1000000 := by
    unfold nanosPerSecond
    omega
  unfold isoText
  rw [hseconds, hmillis]

/-- A moment of the years with four digits is written in the wire form, cut to its millisecond. -/
theorem exists_isWire {utc : Int} (h : -719528 * secondsPerDay * nanosPerSecond ≤ utc
      ∧ utc < 2932897 * secondsPerDay * nanosPerSecond) :
    ∃ v : Written, v.IsWire ∧ v.millis = utc / 1000000 ∧ isoText utc = String.ofList v.text := by
  obtain ⟨total, htotal⟩ : ∃ total, total = utc / 1000000 := ⟨_, rfl⟩
  obtain ⟨day, hday⟩ : ∃ day, day = total / 86400000 := ⟨_, rfl⟩
  obtain ⟨clock, hclock⟩ : ∃ clock : Nat, (clock : Int) = total % 86400000 / 1000 :=
    ⟨(total % 86400000 / 1000).toNat, Int.toNat_of_nonneg (by omega)⟩
  obtain ⟨millis, hmillis⟩ : ∃ millis : Nat, (millis : Int) = total % 1000 :=
    ⟨(total % 1000).toNat, Int.toNat_of_nonneg (by omega)⟩
  obtain ⟨hvalid, hnumber⟩ := CivilDate.dayNumber_ofDayNumber day
  unfold nanosPerSecond secondsPerDay at h
  have hyear := CivilDate.year_bounds hvalid (by omega)
  obtain ⟨v, hv⟩ : ∃ v : Written, v = ⟨(CivilDate.ofDayNumber day).year.toNat,
    (CivilDate.ofDayNumber day).month, (CivilDate.ofDayNumber day).day, 'T', clock / 3600,
    clock / 60 % 60, clock % 60, paddedDigits 3 millis, .universal 'Z'⟩ := ⟨_, rfl⟩
  have hdate : v.date = CivilDate.ofDayNumber day := by
    rw [hv, Written.date, Int.toNat_of_nonneg hyear.1]
  have hwire : v.IsWire := by
    refine ⟨⟨by rw [hdate, hvalid], ?_, ?_, ?_, ?_, ?_, ?_, ?_⟩, ?_, ?_, ?_⟩ <;> rw [hv]
    · exact Int.toNat_le.mpr hyear.2
    · exact .inl rfl
    · change clock / 3600 ≤ 23
      omega
    · change clock / 60 % 60 ≤ 59
      omega
    · change clock % 60 ≤ 59
      omega
    · exact isDigit_of_mem_paddedDigits 3 millis
    · exact .inl rfl
    · exact length_paddedDigits 3 millis
  have htotal' : v.millis = utc / 1000000 := by
    have hfraction : ofDigits v.fraction = millis := by
      rw [hv]
      exact ofDigits_paddedDigits (by omega)
    have hclock' : v.clock = clock := by
      rw [hv, Written.clock]
      dsimp only
      omega
    rw [Written.millis, hdate, hnumber, hfraction, hclock', secondsPerDay]
    omega
  refine ⟨v, hwire, htotal', ?_⟩
  have hfloor : ⌊v.instant * 10 ^ 9⌋ = utc / 1000000 * 1000000 := by
    rw [floor_instant_of_isWire hwire, ← htotal', Written.millis, nanosPerSecond]
    ring
  rw [← isoText_cut, ← hfloor, isoText_of_isWire hwire]

/-! ## The order of texts -/

/-- The first parts of two texts decide their order if they have one length and differ. -/
theorem append_lt_append_iff {a b x y : List Char} (h : a.length = b.length) :
    a ++ x < b ++ y ↔ a < b ∨ a = b ∧ x < y := by
  induction a generalizing b with
  | nil =>
    obtain rfl := List.length_eq_zero_iff.mp h.symm
    simp
  | cons c a ih =>
    cases b with
    | nil => cases h
    | cons d b =>
      rw [List.cons_append, List.cons_append, List.cons_lt_cons_iff, List.cons_lt_cons_iff,
        ih (Nat.succ.inj h), List.cons.injEq]
      tauto

/-- Texts that begin alike are ordered by the rest. -/
theorem cons_lt_cons {x y : List Char} (h : c :: x < c :: y) : x < y :=
  (List.cons_lt_cons_iff.mp h).elim (fun hc => absurd hc (lt_irrefl c)) And.right

/-- Numbers of one width are ordered like their digits. -/
theorem lt_of_paddedDigits_lt {m n : Nat} (hm : m < 10 ^ width) (hn : n < 10 ^ width)
    (h : paddedDigits width m < paddedDigits width n) : m < n := by
  induction width generalizing m n with
  | zero => exact absurd h (lt_irrefl _)
  | succ width ih =>
    have hlength : (paddedDigits width (m / 10)).length = (paddedDigits width (n / 10)).length := by
      rw [length_paddedDigits, length_paddedDigits]
    have hm' : m / 10 < 10 ^ width := by rw [pow_succ] at hm; omega
    have hn' : n / 10 < 10 ^ width := by rw [pow_succ] at hn; omega
    rw [paddedDigits, paddedDigits, append_lt_append_iff hlength] at h
    rcases h with h | ⟨heq, h⟩
    · have hlt := ih hm' hn' h
      omega
    · have hdiv : m / 10 = n / 10 := by
        rw [← ofDigits_paddedDigits hm', heq, ofDigits_paddedDigits hn']
      have hdigits : ∀ a < 10, ∀ b < 10, Nat.digitChar a < Nat.digitChar b → a < b := by decide
      have hlast := hdigits (m % 10) (Nat.mod_lt m (by decide)) (n % 10) (Nat.mod_lt n (by decide))
        ((List.cons_lt_cons_iff.mp h).elim id fun hnil => absurd hnil.2 (lt_irrefl _))
      omega

/-- The first place where two texts differ decides their order. -/
theorem lt_of_place {m n : Nat} {x y : List Char} (hm : m < 10 ^ width) (hn : n < 10 ^ width)
    (h : paddedDigits width m ++ x < paddedDigits width n ++ y) : m < n ∨ m = n ∧ x < y := by
  rw [append_lt_append_iff (by rw [length_paddedDigits, length_paddedDigits])] at h
  refine h.imp (lt_of_paddedDigits_lt hm hn) (And.imp_left ?_)
  intro heq
  rw [← ofDigits_paddedDigits hm, heq, ofDigits_paddedDigits hn]

/-- The text of a timestamp in the wire form, place by place. -/
theorem text_of_isWire (hw : w.IsWire) : w.text =
    paddedDigits 4 w.year ++ '-' :: (paddedDigits 2 w.month ++ '-' :: (paddedDigits 2 w.day
      ++ 'T' :: (paddedDigits 2 w.hour ++ ':' :: (paddedDigits 2 w.minute
        ++ ':' :: (paddedDigits 2 w.second
          ++ '.' :: (paddedDigits 3 (ofDigits w.fraction) ++ ['Z'])))))) := by
  have hfraction := paddedDigits_ofDigits hw.isDigit_fraction
  rw [hw.length_fraction] at hfraction
  have hne : w.fraction ≠ [] := by
    rw [← List.length_pos_iff, hw.length_fraction]
    decide
  rw [hfraction, Written.text, hw.mark_eq, if_neg hne, hw.offset_eq]
  rfl

/-- Of two texts in the wire form, the one that comes first has the earlier day, or the earlier time
of the same day. -/
theorem before_of_text_lt (hv : v.IsWire) (hw : w.IsWire) (h : v.text < w.text) :
    v.date.Before w.date ∨ v.date = w.date ∧ (v.clock < w.clock
      ∨ v.clock = w.clock ∧ ofDigits v.fraction < ofDigits w.fraction) := by
  have hv' := hv.toWellFormed.shaped
  have hw' := hw.toWellFormed.shaped
  rw [text_of_isWire hv, text_of_isWire hw] at h
  rcases lt_of_place hv'.year_lt hw'.year_lt h with hyear | ⟨hyear, h⟩
  · exact .inl (.inl (Int.ofNat_lt.mpr hyear))
  have hyear' : v.date.year = w.date.year := congrArg Int.ofNat hyear
  rcases lt_of_place hv'.month_lt hw'.month_lt (cons_lt_cons h) with hmonth | ⟨hmonth, h⟩
  · exact .inl (.inr ⟨hyear', .inl hmonth⟩)
  rcases lt_of_place hv'.day_lt hw'.day_lt (cons_lt_cons h) with hday | ⟨hday, h⟩
  · exact .inl (.inr ⟨hyear', .inr ⟨hmonth, hday⟩⟩)
  have hdate : v.date = w.date := by rw [Written.date, Written.date, hyear, hmonth, hday]
  refine .inr ⟨hdate, ?_⟩
  have hminute := hv.minute_le
  have hminute' := hw.minute_le
  have hsecond := hv.second_le
  have hsecond' := hw.second_le
  unfold Written.clock
  rcases lt_of_place hv'.hour_lt hw'.hour_lt (cons_lt_cons h) with hhour | ⟨hhour, h⟩
  · exact .inl (by omega)
  rcases lt_of_place hv'.minute_lt hw'.minute_lt (cons_lt_cons h) with hminutes | ⟨hminutes, h⟩
  · exact .inl (by omega)
  rcases lt_of_place hv'.second_lt hw'.second_lt (cons_lt_cons h) with hseconds | ⟨hseconds, h⟩
  · exact .inl (by omega)
  refine .inr ⟨by omega, ?_⟩
  exact (lt_of_place (millis_lt hv) (millis_lt hw) (cons_lt_cons h)).elim id
    fun hend => absurd hend.2 (lt_irrefl _)

/-- Texts in the wire form come in the order of their instants. -/
theorem millis_lt_of_text_lt (hv : v.IsWire) (hw : w.IsWire) (h : v.text < w.text) :
    v.millis < w.millis := by
  have hvm := millis_lt hv
  have hwm := millis_lt hw
  have hvc := clock_lt hv.toWellFormed
  have hwc := clock_lt hw.toWellFormed
  unfold Written.millis secondsPerDay
  rcases before_of_text_lt hv hw h with hbefore | ⟨hdate, hclock⟩
  · have hday := CivilDate.dayNumber_lt hbefore hv.isValid_date hw.isValid_date
    omega
  · rw [hdate]
    omega

/-! ## Canonical texts -/

/-- A moment that is read lies in the years with four digits if its instant does. -/
theorem utc_bounds {instant : ℚ} (h : InYears instant) :
    -719528 * secondsPerDay * nanosPerSecond ≤ ⌊instant * 10 ^ 9⌋
      ∧ ⌊instant * 10 ^ 9⌋ < 2932897 * secondsPerDay * nanosPerSecond := by
  have hfirst : CivilDate.dayNumber ⟨0, 1, 1⟩ = -719528 := by decide
  have hlast : CivilDate.dayNumber ⟨10000, 1, 1⟩ = 2932897 := by decide
  obtain ⟨hle, hlt⟩ := h
  rw [hfirst] at hle
  rw [hlast] at hlt
  unfold secondsPerDay at *
  unfold nanosPerSecond
  push_cast at hle hlt
  rw [Int.le_floor, Int.floor_lt]
  push_cast
  constructor <;> linarith

/-- What is parsed was read. -/
theorem ofIso?_of_parse {text : String} (h : parse text = .ok t) : ofIso? text = some t := by
  unfold parse at h
  split at h
  next hsome => exact hsome.trans (congrArg some (Except.ok.inj h))
  next => cases h

/-- What is written of a text that names an instant of the years 0000 to 9999. -/
theorem exists_wire {text : String} {instant : ℚ} (h : parse text = .ok t)
    (hnames : Names text instant) (hyears : InYears instant) : ∃ v : Written, v.IsWire
      ∧ canonical text = .ok (String.ofList v.text) ∧ v.millis = ⌊instant * 1000⌋ := by
  have hread := ofIso?_of_parse h
  have hbounds := utc_bounds hyears
  rw [← utc_eq_floor hread hnames] at hbounds
  obtain ⟨v, hv, hmillis, htext⟩ := exists_isWire hbounds
  have hin : inCalendar t.utc = true := by
    have hday : t.utc = t.utc / (secondsPerDay * nanosPerSecond) * secondsPerDay * nanosPerSecond
        + t.utc % (secondsPerDay * nanosPerSecond) := by
      unfold secondsPerDay nanosPerSecond
      omega
    rw [hday]
    unfold secondsPerDay nanosPerSecond at *
    exact inCalendar_of_dayNumber (by omega) (by unfold secondsPerDay nanosPerSecond; omega)
  refine ⟨v, hv, ?_, ?_⟩
  · rw [canonical, h]
    change t.toIso = _
    rw [toIso, if_pos hin, htext]
  · have hscale : instant * 10 ^ 9 = instant * 1000 * (1000000 : Int) := by
      push_cast
      ring
    rw [hmillis, utc_eq_floor hread hnames, hscale,
      Int.mul_cast_floor_div_cancel_of_pos (by decide)]

/-- Every text that is read names an instant. If this lies in the years 0000 to 9999, what is
written is a text in the wire form, which names the instant cut to the millisecond. It is written of
itself too, and what is written of a later instant does not come before it. -/
theorem wire_canonical {text : String} (h : parse text = .ok t) :
    (∃ instant, Names text instant) ∧ ∀ instant, Names text instant → InYears instant →
      ∃ v : Written, v.IsWire ∧ canonical text = .ok (String.ofList v.text)
        ∧ v.instant = ⌊instant * 1000⌋ / 1000
        ∧ canonical (String.ofList v.text) = .ok (String.ofList v.text)
        ∧ ∀ other after later, Names other later → InYears later → instant ≤ later →
          canonical other = .ok after → ¬ after < String.ofList v.text := by
  have hread := ofIso?_of_parse h
  refine ⟨exists_names hread, ?_⟩
  intro instant hnames hyears
  obtain ⟨v, hv, htext, hmillis⟩ := exists_wire h hnames hyears
  refine ⟨v, hv, htext, by rw [instant_of_isWire hv, hmillis],
    canonical_of_floor_eq hv hv.toWellFormed rfl, ?_⟩
  intro other after later hlater hyears' hle hafter hlt
  obtain ⟨t', hparse, -⟩ := Result.bind_eq_ok.mp hafter
  obtain ⟨w, hw, hother, hmillis'⟩ := exists_wire hparse hlater hyears'
  obtain rfl := Except.ok.inj (hafter.symm.trans hother)
  rw [String.lt_iff_toList_lt, String.toList_ofList, String.toList_ofList] at hlt
  have hmillis_lt := millis_lt_of_text_lt hw hv hlt
  have hfloor : ⌊instant * 1000⌋ ≤ ⌊later * 1000⌋ := Int.floor_le_floor (by linarith)
  omega

/-- The leap second at the end of 2016, read off a clock eight hours behind. -/
def leapSecond : Written := ⟨2016, 12, 31, 't', 15, 59, 60, ['2', '5'], .apart true 8 0⟩

theorem counted_leapSecond : leapSecond.counted.WellFormed where
  isValid_date := by decide
  year_le := by decide
  isMark := .inl rfl
  hour_le := by decide
  minute_le := by decide
  second_le := by decide
  isDigit_fraction := fun _ hc => List.eq_of_mem_replicate hc ▸ rfl
  offset := ⟨by decide, by decide⟩

/-- The leap second is written as the last millisecond of the year. -/
theorem leapSecond_canonical :
    parse "2016-12-31t15:59:60.25-08:00"
      = .ok ⟨(17166 * 86400 + 57599) * 1000000000 + 999999999, -28800⟩
    ∧ Names "2016-12-31t15:59:60.25-08:00" leapSecond.counted.instant
    ∧ InYears leapSecond.counted.instant
    ∧ ∃ v : Written, v.IsWire
      ∧ canonical "2016-12-31t15:59:60.25-08:00" = .ok (String.ofList v.text)
      ∧ v.instant = ⌊leapSecond.counted.instant * 1000⌋ / 1000 := by
  have hparse : parse "2016-12-31t15:59:60.25-08:00"
      = .ok ⟨(17166 * 86400 + 57599) * 1000000000 + 999999999, -28800⟩ := by
    have hread : ofIso? "2016-12-31t15:59:60.25-08:00"
        = some ⟨(17166 * 86400 + 57599) * 1000000000 + 999999999, -28800⟩ := by decide +kernel
    rw [parse, hread]
  have hnames : Names "2016-12-31t15:59:60.25-08:00" leapSecond.counted.instant :=
    ⟨leapSecond, ⟨⟨by decide, by decide, by decide, by decide, by decide, by decide, by decide,
      List.all_eq_true.mp rfl, by decide, by decide⟩, counted_leapSecond⟩, by decide +kernel, rfl⟩
  have hyears : InYears leapSecond.counted.instant := by
    have hwhole : leapSecond.counted.wholeSeconds = 17166 * 86400 + 57599 := by decide +kernel
    have hoffset : leapSecond.counted.offset.seconds = -28800 := by decide +kernel
    have hdigits : ofDigits leapSecond.counted.fraction = 999999999 := by decide +kernel
    have hlength : leapSecond.counted.fraction.length = 9 := rfl
    have hfirst : CivilDate.dayNumber ⟨0, 1, 1⟩ = -719528 := by decide
    have hlast : CivilDate.dayNumber ⟨10000, 1, 1⟩ = 2932897 := by decide
    rw [InYears, Written.instant, hwhole, hoffset, hdigits, hlength, hfirst, hlast, secondsPerDay]
    norm_num
  obtain ⟨v, hv, htext, hinstant, -⟩ := (wire_canonical hparse).2 _ hnames hyears
  exact ⟨hparse, hnames, hyears, v, hv, htext, hinstant⟩

end ObjectStore.Timestamp
