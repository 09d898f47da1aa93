import Mathlib.Tactic
import ObjectStore.Time.Timestamp

/-!
# Days and their numbers

The number of a day gives the day back (`ofDayNumber_dayNumber`), for every day of every year. A
number is split by the four hundred years of a cycle into centuries, blocks of four years, years and
days, and the divisions by the lengths of these come out even but for the leap days, which stand at
the end of each part (`year_ofDays`). Within a year that begins in March, the months of 31 and 30
days follow one line (`month_ofDays`).

Every number is that of a day (`dayNumber_ofDayNumber`), and of two days the earlier one has the
smaller number (`dayNumber_lt`).
-/

namespace ObjectStore.CivilDate

/-- The year of a cycle, from a day of it. The leap day of a block of four years is its last day,
which is missing at the end of a century unless it is the last of the cycle. -/
theorem year_ofDays {century block year day : Int} (hcentury : 0 ≤ century ∧ century ≤ 3)
    (hblock : 0 ≤ block ∧ block ≤ 24) (hyear : 0 ≤ year ∧ year ≤ 3)
    (hday : 0 ≤ day ∧ day ≤ 364 ∨ day = 365 ∧ year = 3 ∧ (block ≠ 24 ∨ century = 3))
    {n : Int} (hn : n = 36524 * century + 1461 * block + 365 * year + day) :
    (n - n / 1460 + n / 36524 - n / 146096) / 365 = 100 * century + 4 * block + year := by
  obtain ⟨rest, hrest⟩ : ∃ rest, rest = 365 * year + day := ⟨_, rfl⟩
  have hbounds : 0 ≤ rest ∧ (rest ≤ 1459 ∨ rest = 1460 ∧ (block ≠ 24 ∨ century = 3)) := by omega
  have hyear' : rest / 365 = year ∨ rest = 1460 ∧ year = 3 := by omega
  have hcenturies : n / 36524 - n / 146096 = century := by
    obtain ⟨m, hm⟩ : ∃ m, m = 1461 * block + rest := ⟨_, rfl⟩
    have hn' : n = 36524 * century + m := by omega
    have hlast : 0 ≤ m ∧ (m ≤ 36523 ∨ m = 36524 ∧ century = 3) := by omega
    clear hn hm hyear' hday
    rcases hlast with ⟨hnonneg, hless | ⟨rfl, rfl⟩⟩
    · have hcycle : n / 146096 = 0 := by omega
      omega
    · omega
  -- the leap days up to here add a block to what a division by 1460 counts, in its last year only
  have hcarry : 0 ≤ (24 * century + block + rest) / 1460
      ∧ (24 * century + block + rest) / 1460 ≤ 1
      ∧ ((24 * century + block + rest) / 1460 = 1 → 1095 < rest)
      ∧ (rest = 1460 → (24 * century + block + rest) / 1460 = 1) := by omega
  have hblocks : n / 1460 = 25 * century + block + (24 * century + block + rest) / 1460 := by
    have hn' : n = 1460 * (25 * century + block) + (24 * century + block + rest) := by omega
    rw [hn']
    omega
  generalize (24 * century + block + rest) / 1460 = carry at *
  have hsum : n - n / 1460 + n / 36524 - n / 146096
      = 365 * (100 * century + 4 * block) + (rest - carry) := by omega
  rw [hsum]
  omega

theorem year_ofDay {year day n : Int} (hyear : 0 ≤ year ∧ year ≤ 399) (hfirst : 0 ≤ day)
    (hday : day ≤ 364 ∨ day = 365 ∧ year % 4 = 3 ∧ (year % 100 ≠ 99 ∨ year = 399))
    (hn : n = year * 365 + year / 4 - year / 100 + day) :
    (n - n / 1460 + n / 36524 - n / 146096) / 365 = year := by
  obtain ⟨century, hcentury⟩ : ∃ century, century = year / 100 := ⟨_, rfl⟩
  obtain ⟨block, hblock⟩ : ∃ block, block = year % 100 / 4 := ⟨_, rfl⟩
  obtain ⟨rest, hrest⟩ : ∃ rest, rest = year % 4 := ⟨_, rfl⟩
  have hparts : year = 100 * century + 4 * block + rest := by omega
  have hblocks : year / 4 = 25 * century + block := by omega
  rw [hparts]
  exact @year_ofDays century block rest day (by omega) (by omega) (by omega) (by omega) n (by omega)

/-- The month of a year that begins in March, from a day of it: a month starts `153 / 5` days after
the month before, rounded. -/
theorem month_ofDays {month day : Int}
    (hday : 1 ≤ day ∧ (153 * month + 2) / 5 + day ≤ (153 * (month + 1) + 2) / 5) :
    (5 * ((153 * month + 2) / 5 + day - 1) + 2) / 153 = month := by
  omega

/-- The bounds of the numbers of a day. -/
theorem isValid_bounds {date : CivilDate} (h : date.isValid = true) :
    1 ≤ date.month ∧ date.month ≤ 12 ∧ 1 ≤ date.day ∧ date.day ≤ 31 := by
  simp only [isValid, Bool.and_eq_true, decide_eq_true_iff] at h
  obtain ⟨⟨⟨hmonth, hmonth'⟩, hfirst⟩, hlast⟩ := h
  have hlength : monthLength date.year date.month ≤ 31 := by
    unfold monthLength
    split
    · split <;> decide
    all_goals decide
  exact ⟨hmonth, hmonth', hfirst, hlast.trans hlength⟩

/-- All months but February have the days that their place in a year from March gives them. -/
theorem monthLength_eq (year : Int) {month : Nat} (hmonth : 1 ≤ month ∧ month ≤ 12)
    (hfebruary : month ≠ 2) {m : Int}
    (hm : m = if month ≤ 2 then (month : Int) + 9 else month - 3) :
    (153 * m + 2) / 5 + monthLength year month = (153 * (m + 1) + 2) / 5 := by
  obtain ⟨hleast, hgreatest⟩ := hmonth
  interval_cases month
  case «2» => exact absurd rfl hfebruary
  all_goals
    subst hm
    simp only [monthLength]
    decide

/-- A month has at most the days that its place in a year from March gives it. -/
theorem monthLength_le {year : Int} {month : Nat} (hmonth : 1 ≤ month ∧ month ≤ 12) {m : Int}
    (hm : m = if month ≤ 2 then (month : Int) + 9 else month - 3) :
    (153 * m + 2) / 5 + monthLength year month ≤ (153 * (m + 1) + 2) / 5 := by
  by_cases hfebruary : month = 2
  · subst hfebruary
    have hdays : (monthLength year 2 : Int) ≤ 29 := by
      rw [monthLength]
      split <;> decide
    rw [if_pos (le_refl 2)] at hm
    omega
  · exact (monthLength_eq year hmonth hfebruary hm).le

/-- A day of the calendar whose years begin in March: the cycle of four hundred years, the year in
it, the month and the number of the day in the year. -/
structure IsDay (date : CivilDate) (cycle year month day : Int) : Prop where
  year_bounds : 0 ≤ year ∧ year ≤ 399
  month_bounds : 0 ≤ month ∧ month ≤ 11
  date_month : (date.month : Int) = if month < 10 then month + 3 else month - 9
  date_year : date.year = (if date.month ≤ 2 then 1 else 0) + (year + cycle * 400)
  day_eq : day = (153 * month + 2) / 5 + date.day - 1
  in_month : 1 ≤ (date.day : Int) ∧ (153 * month + 2) / 5 + date.day ≤ (153 * (month + 1) + 2) / 5
  in_year : day ≤ 364 ∨ day = 365 ∧ year % 4 = 3 ∧ (year % 100 ≠ 99 ∨ year = 399)

theorem exists_isDay {date : CivilDate} (h : date.isValid = true) : ∃ cycle year month day : Int,
    IsDay date cycle year month day ∧ date.dayNumber = cycle * cycleDays
      + (year * 365 + year / 4 - year / 100 + day) - epochShift := by
  obtain ⟨year, month, day⟩ := date
  simp only [isValid, Bool.and_eq_true, decide_eq_true_iff] at h
  obtain ⟨⟨hmonth, hfirst⟩, hlast⟩ := h
  obtain ⟨m, hm⟩ : ∃ m : Int, m = if month ≤ 2 then (month : Int) + 9 else month - 3 := ⟨_, rfl⟩
  obtain ⟨y, hy⟩ : ∃ y, y = if month ≤ 2 then year - 1 else year := ⟨_, rfl⟩
  have hlength := @monthLength_le year month hmonth m hm
  refine ⟨y / 400, y % 400, m, (153 * m + 2) / 5 + day - 1,
    ⟨by omega, by split at hm <;> omega, ?_, ?_, rfl, ?_, ?_⟩, ?_⟩
  · dsimp only
    split at hm <;> split <;> omega
  · dsimp only
    split at hy <;> rename_i hmonth' <;> simp only [hmonth', if_true, if_false] <;> omega
  · change 1 ≤ (day : Int) ∧ (153 * m + 2) / 5 + (day : Int) ≤ (153 * (m + 1) + 2) / 5
    omega
  · by_cases hfebruary : month = 2
    · subst hfebruary
      rw [monthLength] at hlast
      rw [if_pos (le_refl 2)] at hm hy
      split at hlast
      next hleap =>
        simp only [isLeap, Bool.and_eq_true, Bool.or_eq_true, decide_eq_true_iff] at hleap
        omega
      next => omega
    · split at hm <;> omega
  · rw [dayNumber]
    dsimp only
    rw [← hm, ← hy]

/-- A day is found again from its number. -/
theorem ofDayNumber_dayNumber {date : CivilDate} (h : date.isValid = true) :
    ofDayNumber date.dayNumber = date := by
  obtain ⟨cycle, year, month, day, hday, hnumber⟩ := exists_isDay h
  obtain ⟨hyear, hmonth, hdate_month, hdate_year, hday_eq, hin_month, hin_year⟩ := hday
  have hfirst : 0 ≤ day := by omega
  have hmonth' := month_ofDays hin_month
  rw [← hday_eq] at hmonth'
  obtain ⟨n, hn⟩ : ∃ n, n = year * 365 + year / 4 - year / 100 + day := ⟨_, rfl⟩
  have hyear' := year_ofDay hyear hfirst hin_year hn
  have hshifted : date.dayNumber + epochShift = cycle * cycleDays + n := by omega
  have hbounds : 0 ≤ n ∧ n < cycleDays := by
    unfold cycleDays
    omega
  have hcycle : (cycle * cycleDays + n) / cycleDays = cycle := by
    rw [Int.add_comm, Int.add_mul_ediv_right _ _ (by decide),
      Int.ediv_eq_zero_of_lt hbounds.1 hbounds.2,
      Int.zero_add]
  have hrest : (cycle * cycleDays + n) % cycleDays = n := by
    rw [Int.add_comm, Int.add_mul_emod_self_right, Int.emod_eq_of_lt hbounds.1 hbounds.2]
  have hday' : n - (365 * year + year / 4 - year / 100) = day := by omega
  unfold ofDayNumber
  rw [hshifted]
  dsimp only
  rw [hcycle, hrest, hyear', hday', hmonth', ← hdate_month]
  obtain ⟨dateYear, dateMonth, dateDay⟩ := date
  dsimp only at *
  congr 1
  · rw [hdate_year]
    split <;> split <;> omega
  · omega

/-- The numbers of the days of years with four digits. -/
theorem dayNumber_bounds {date : CivilDate} (h : date.isValid = true) (hfirst : 0 ≤ date.year)
    (hlast : date.year ≤ 9999) : -719528 ≤ date.dayNumber ∧ date.dayNumber < 2932897 := by
  obtain ⟨cycle, year, month, day, hday, hnumber⟩ := exists_isDay h
  obtain ⟨hyear, hmonth, hdate_month, hdate_year, hday_eq, hin_month, hin_year⟩ := hday
  have hfirst : 0 ≤ day := by omega
  obtain ⟨n, hn⟩ : ∃ n, n = year * 365 + year / 4 - year / 100 := ⟨_, rfl⟩
  have hyears : 0 ≤ n ∧ n ≤ 145731 := by omega
  rw [hnumber, ← hn]
  unfold cycleDays epochShift
  by_cases hspring : month < 10
  · rw [if_pos hspring] at hdate_month
    rw [if_neg (by omega)] at hdate_year
    have hday : day ≤ 305 := by omega
    have hcycle : 0 ≤ cycle ∧ cycle ≤ 24 := by omega
    clear hn hday_eq hin_month hin_year hdate_year
    omega
  · -- the first days of a year belong to the last year of the cycle before
    rw [if_neg hspring] at hdate_month
    rw [if_pos (by omega)] at hdate_year
    have hday : 306 ≤ day ∧ day ≤ 365 := by omega
    have hcycle : cycle = -1 ∧ n = 145731 ∨ 0 ≤ cycle ∧ cycle ≤ 23
        ∨ cycle = 24 ∧ n ≤ 145366 := by omega
    clear hn hday_eq hin_month hin_year hdate_year
    omega

/-! ## Every number is that of a day -/

/-- The century, the block of four years, the year and the day of a day of a cycle. The last day of
a cycle is the leap day of its last century, and the last day of a block that of its last year. -/
theorem exists_parts {n : Int} (hn : 0 ≤ n ∧ n < cycleDays) : ∃ century block year day : Int,
    n = 36524 * century + 1461 * block + 365 * year + day ∧ (0 ≤ century ∧ century ≤ 3)
      ∧ (0 ≤ block ∧ block ≤ 24) ∧ (0 ≤ year ∧ year ≤ 3) ∧ 0 ≤ day
      ∧ (day ≤ 364 ∨ day = 365 ∧ year = 3 ∧ (block ≠ 24 ∨ century = 3)) := by
  unfold cycleDays at hn
  obtain ⟨century, rest, hcentury, hrest, hsplit⟩ : ∃ century rest : Int,
      (0 ≤ century ∧ century ≤ 3) ∧ (0 ≤ rest ∧ (rest ≤ 36523 ∨ rest = 36524 ∧ century = 3))
        ∧ n = 36524 * century + rest := by
    by_cases hlast : n = 146096
    · exact ⟨3, 36524, by omega⟩
    · exact ⟨n / 36524, n % 36524, by omega⟩
  obtain ⟨year, day, hyear, hday, hsplit'⟩ : ∃ year day : Int, (0 ≤ year ∧ year ≤ 3)
      ∧ (0 ≤ day ∧ (day ≤ 364 ∨ day = 365 ∧ year = 3)) ∧ rest % 1461 = 365 * year + day := by
    by_cases hlast : rest % 1461 = 1460
    · exact ⟨3, 365, by omega⟩
    · exact ⟨rest % 1461 / 365, rest % 1461 % 365, by omega⟩
  exact ⟨century, rest / 1461, year, day, by omega, hcentury, by omega, hyear, hday.1, by omega⟩

theorem exists_yearOfCycle {n : Int} (hn : 0 ≤ n ∧ n < cycleDays) : ∃ year day : Int,
    n = year * 365 + year / 4 - year / 100 + day ∧ (0 ≤ year ∧ year ≤ 399) ∧ 0 ≤ day
      ∧ (day ≤ 364 ∨ day = 365 ∧ year % 4 = 3 ∧ (year % 100 ≠ 99 ∨ year = 399)) := by
  obtain ⟨century, block, year, day, hsplit, hcentury, hblock, hyear, hfirst, hday⟩ :=
    exists_parts hn
  refine ⟨100 * century + 4 * block + year, day, ?_, by omega, hfirst, by omega⟩
  have hblocks : (100 * century + 4 * block + year) / 4 = 25 * century + block := by omega
  have hcenturies : (100 * century + 4 * block + year) / 100 = century := by omega
  omega

/-- Every number is that of a day. -/
theorem exists_dayNumber_eq (n : Int) :
    ∃ date : CivilDate, date.isValid = true ∧ date.dayNumber = n := by
  obtain ⟨year, day, hn, hyear, hfirst, hday⟩ := @exists_yearOfCycle ((n + epochShift) % cycleDays)
    ⟨Int.emod_nonneg _ (by decide), Int.emod_lt_of_pos _ (by decide)⟩
  obtain ⟨m, hm⟩ : ∃ m, m = (5 * day + 2) / 153 := ⟨_, rfl⟩
  obtain ⟨dayOfMonth, hdayOfMonth⟩ : ∃ dayOfMonth : Nat,
      (dayOfMonth : Int) = day - (153 * m + 2) / 5 + 1 :=
    ⟨(day - (153 * m + 2) / 5 + 1).toNat, Int.toNat_of_nonneg (by omega)⟩
  obtain ⟨month, hmonth⟩ : ∃ month : Nat, (month : Int) = if m < 10 then m + 3 else m - 9 :=
    ⟨(if m < 10 then m + 3 else m - 9).toNat, Int.toNat_of_nonneg (by split <;> omega)⟩
  have hm' : m = if month ≤ 2 then (month : Int) + 9 else month - 3 := by
    split at hmonth <;> split <;> omega
  have hbounds : 1 ≤ month ∧ month ≤ 12 := by split at hmonth <;> omega
  obtain ⟨y, hy⟩ : ∃ y, y = year + (n + epochShift) / cycleDays * 400 := ⟨_, rfl⟩
  refine ⟨⟨if month ≤ 2 then y + 1 else y, month, dayOfMonth⟩, ?_, ?_⟩
  · simp only [isValid, Bool.and_eq_true, decide_eq_true_iff]
    refine ⟨⟨hbounds, by omega⟩, ?_⟩
    by_cases hfebruary : month = 2
    · subst hfebruary
      rw [if_pos (le_refl 2)] at hm' ⊢
      rw [monthLength]
      split
      next => omega
      next hleap =>
        simp only [isLeap, Bool.and_eq_true, Bool.or_eq_true, decide_eq_true_iff] at hleap
        omega
    · have hlength := monthLength_eq (if month ≤ 2 then y + 1 else y) hbounds hfebruary hm'
      omega
  · have hyear' : (if month ≤ 2 then (if month ≤ 2 then y + 1 else y) - 1
        else if month ≤ 2 then y + 1 else y) = y := by
      split <;> omega
    have hcycle : y / 400 = (n + epochShift) / cycleDays := by omega
    have hrest : y % 400 = year := by omega
    rw [dayNumber]
    dsimp only
    rw [hyear', ← hm', hcycle, hrest, hdayOfMonth]
    have hsplit := Int.mul_ediv_add_emod (n + epochShift) cycleDays
    rw [hn] at hsplit
    rw [mul_comm] at hsplit
    omega

/-- The day of a number has this number. -/
theorem dayNumber_ofDayNumber (n : Int) :
    (ofDayNumber n).isValid = true ∧ (ofDayNumber n).dayNumber = n := by
  obtain ⟨date, hvalid, rfl⟩ := exists_dayNumber_eq n
  rw [ofDayNumber_dayNumber hvalid]
  exact ⟨hvalid, rfl⟩

/-! ## Numbers and the calendar run alike -/

variable {date later : CivilDate}

/-- A day comes before another one in the calendar. -/
def Before (date later : CivilDate) : Prop :=
  date.year < later.year ∨ date.year = later.year
    ∧ (date.month < later.month ∨ date.month = later.month ∧ date.day < later.day)

/-- A day that comes before another one has a smaller number. -/
theorem dayNumber_lt (h : date.Before later) (hdate : date.isValid = true)
    (hlater : later.isValid = true) : date.dayNumber < later.dayNumber := by
  obtain ⟨cycle, year, month, day, hday, hnumber⟩ := exists_isDay hdate
  obtain ⟨hyear, hmonth, hdate_month, hdate_year, hday_eq, hin_month, hin_year⟩ := hday
  obtain ⟨cycle', year', month', day', hday', hnumber'⟩ := exists_isDay hlater
  obtain ⟨hyear', hmonth', hlater_month, hlater_year, hday_eq', hin_month', hin_year'⟩ := hday'
  unfold Before at h
  have horder : cycle < cycle' ∨ cycle = cycle' ∧ year < year'
      ∨ cycle = cycle' ∧ year = year'
        ∧ (month < month' ∨ month = month' ∧ date.day < later.day) := by
    clear hday_eq hin_month hin_year hday_eq' hin_month' hin_year' hnumber hnumber'
    split at hdate_month <;> split at hlater_month <;> split at hdate_year <;>
      split at hlater_year <;> omega
  have hfirst : 0 ≤ day ∧ day ≤ 365 := by omega
  have hfirst' : 0 ≤ day' := by omega
  rw [hnumber, hnumber']
  unfold cycleDays
  clear h hdate_month hlater_month hdate_year hlater_year
  rcases horder with hcycle | ⟨rfl, hyears⟩ | ⟨rfl, rfl, hmonths⟩
  · have hlast : year * 365 + year / 4 - year / 100 + day < 146097 := by omega
    have hnext : 0 ≤ year' * 365 + year' / 4 - year' / 100 := by omega
    omega
  · have hlast : year * 365 + year / 4 - year / 100 + day
        < (year + 1) * 365 + (year + 1) / 4 - (year + 1) / 100 := by omega
    have hnext : (year + 1) * 365 + (year + 1) / 4 - (year + 1) / 100
        ≤ year' * 365 + year' / 4 - year' / 100 := by omega
    omega
  · have hdays : day < day' := by omega
    omega

/-- The days with numbers between those of the first and the last day of years with four digits lie
in such years. -/
theorem year_bounds (h : date.isValid = true)
    (hbounds : -719528 ≤ date.dayNumber ∧ date.dayNumber < 2932897) :
    0 ≤ date.year ∧ date.year ≤ 9999 := by
  have hfirst : dayNumber ⟨0, 1, 1⟩ = -719528 ∧ isValid ⟨0, 1, 1⟩ = true := by decide
  have hlast : dayNumber ⟨9999, 12, 31⟩ = 2932896 ∧ isValid ⟨9999, 12, 31⟩ = true := by decide
  constructor
  · by_contra hyear
    have hlt := dayNumber_lt (.inl (not_le.mp hyear)) h hfirst.2
    omega
  · by_contra hyear
    have hlt := dayNumber_lt (.inl (not_le.mp hyear)) hlast.2 h
    omega

end ObjectStore.CivilDate
