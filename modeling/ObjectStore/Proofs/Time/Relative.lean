import Mathlib.Algebra.BigOperators.Group.List.Basic
import Mathlib.Algebra.Order.Ring.Int
import ObjectStore.Proofs.Result
import ObjectStore.Query.FieldRef

/-!
# Relative times as integers

A relative time says a direction and, for some units, how many of each (`RelativeTime.Says`). Its
distance is an integer of any size, but distances are counted in 64-bit words, and moments lie in a
calendar that has an end. The texts that name a moment exactly are those whose distance is such a
word and leads to a moment in the calendar (`RelativeTime.resolve_exact_iff`).

Words wrap around, so a sum of pairs may leave them on the way and come back: only the wrapped sum
counts (`RelativeTime.sumPairs_of_pairs`).
-/

namespace ObjectStore

namespace RelativeTime

open Result

variable {text : String} {spoken : List String} {spans : List (Int × Int)}
  {d : Direction} {now : Timestamp} {a b total seconds : Int} {e : Error}

/-! ## Integers in 64-bit words -/

/-- An integer is a 64-bit word with sign. -/
def FitsWord (n : Int) : Prop := -2 ^ 63 ≤ n ∧ n < 2 ^ 63

/-- Only what is no 64-bit word is changed by wrapping. -/
theorem wrap_eq_self_iff : wrap a = a ↔ FitsWord a := by
  constructor
  · intro h
    rw [← h]
    exact ⟨Int64.le_toInt _, Int64.toInt_lt _⟩
  · rintro ⟨hleast, hgreatest⟩
    exact Int64.toInt_ofInt_of_le hleast hgreatest

/-- Wrapping a part of a sum first does not change the wrapped sum. -/
theorem wrap_add (a b : Int) : wrap (wrap a + wrap b) = wrap (a + b) := by
  simp only [wrap, Int64.toInt_ofInt, Int.bmod_add_bmod, Int.add_bmod_bmod]

/-! ## What a text says -/

/-- Words are pairs of a number and a unit; each pair stands for an amount and for the seconds of
the unit. -/
inductive Pairs : List String → List (Int × Int) → Prop
  | nil : Pairs [] []
  | cons {number unit : String} {words : List String} {amount seconds : Int}
    {spans : List (Int × Int)} : readInteger? number = some amount →
    unitSeconds? unit = some seconds → Pairs words spans →
    Pairs (number :: unit :: words) ((amount, seconds) :: spans)

/-- The seconds that spans add up to. -/
def distance (spans : List (Int × Int)) : Int :=
  (spans.map fun (amount, seconds) => amount * seconds).sum

/-- The words of a text, in lower case. -/
def words (text : String) : List String :=
  (Text.split ' ' (Text.lower text)).filter fun word => !word.isEmpty

/-- The direction of a text, and the words that it says a distance in. -/
inductive Phrase (text : String) : Direction → List String → Prop
  | future {spoken : List String} : words text = "in" :: spoken →
    (words text).getLast? ≠ some "ago" → Phrase text .future spoken
  | past {spoken : List String} : words text = spoken ++ ["ago"] →
    (words text).head? ≠ some "in" → Phrase text .past spoken
  | present : Text.lower text = "now" → Phrase text .present []

/-- A text says a direction and how many seconds of which units. -/
def Says (text : String) (d : Direction) (spans : List (Int × Int)) : Prop :=
  ∃ spoken, Phrase text d spoken ∧ Pairs spoken spans

/-! ## Sums of pairs -/

/-- Pairs add their wrapped distance to a total. The total is wrapped after each pair, and only what
comes out at last counts. -/
theorem sumPairs_of_pairs (h : Pairs spoken spans) (total : Int) :
    sumPairs (wrap total) spoken = .ok (wrap (total + distance spans)) := by
  induction h generalizing total with
  | nil => rw [sumPairs, distance, List.map_nil, List.sum_nil, Int.add_zero]; nofun
  | @cons number unit words amount seconds spans hnumber hunit _ ih =>
    have hsum : total + distance ((amount, seconds) :: spans)
        = total + amount * seconds + distance spans := by
      rw [distance, List.map_cons, List.sum_cons, ← Int.add_assoc]
      rfl
    rw [sumPairs, hnumber, hunit]
    dsimp only
    rw [wrap_add, ih, hsum]

/-- Words with a sum are pairs of numbers and units, but for a last word that stands alone. -/
theorem exists_pairs (h : sumPairs total spoken = .ok seconds) (heven : spoken.length % 2 = 0) :
    ∃ spans, Pairs spoken spans := by
  fun_induction sumPairs total spoken with
  | case1 => cases h
  | case2 => cases h
  | case3 total number unit words amount hnumber seconds hunit ih =>
    obtain ⟨spans, hspans⟩ := ih h (by simp only [List.length_cons] at heven; omega)
    exact ⟨_, .cons hnumber hunit hspans⟩
  | case4 spoken total hshort =>
    -- the sum of fewer than two words is what it was, and a single word would be odd
    match spoken with
    | [] => exact ⟨[], .nil⟩
    | [_] => cases heven
    | number :: unit :: words => exact absurd rfl (hshort number unit words)

/-- A sum is refused only for what a word says, and never for its size. -/
theorem sumPairs_refused (h : sumPairs total spoken = .error e) :
    ∃ fault, e = .invalidJson fault := by
  fun_induction sumPairs total spoken with
  | case1 => exact ⟨_, (Except.error.inj h).symm⟩
  | case2 => exact ⟨_, (Except.error.inj h).symm⟩
  | case3 total number unit words amount hnumber seconds hunit ih => exact ih h
  | case4 => cases h

/-- Pairs have an even number of words. -/
theorem length_even (h : Pairs spoken spans) : spoken.length % 2 = 0 := by
  induction h with
  | nil => rfl
  | cons _ _ _ ih => simp only [List.length_cons]; omega

/-! ## The moment -/

/-- A direction is read, with the words that are left, just if the text has one. -/
theorem direction_eq_ok :
    direction (Text.lower text) (words text) = .ok (d, spoken) ↔ Phrase text d spoken := by
  constructor
  · intro h
    unfold direction at h
    split at h
    next => cases h
    next hfirst hlast =>
      cases h
      rw [beq_iff_eq, List.head?_eq_some_iff] at hfirst
      obtain ⟨spoken, hwords⟩ := hfirst
      rw [hwords, List.drop_one, List.tail_cons]
      exact .future hwords (bne_iff_ne.mp (congrArg not hlast))
    next hfirst hlast =>
      cases h
      rw [beq_iff_eq, List.getLast?_eq_some_iff] at hlast
      obtain ⟨spoken, hwords⟩ := hlast
      rw [hwords, List.dropLast_concat]
      exact .past hwords (bne_iff_ne.mp (congrArg not hfirst))
    next =>
      split at h
      next hnow =>
        cases h
        exact .present hnow
      next => cases h
  · intro h
    unfold direction
    cases h with
    | future hwords hlast =>
      rw [beq_eq_false_iff_ne.mpr hlast, hwords, List.head?_cons, beq_self_eq_true]
      rfl
    | past hwords hfirst =>
      rw [beq_eq_false_iff_ne.mpr hfirst, hwords, List.getLast?_concat, beq_self_eq_true]
      dsimp only
      rw [List.dropLast_concat]
    | present hnow =>
      have hwords : words text = ["now"] := by
        rw [words, hnow]
        decide +kernel
      rw [hwords, hnow]
      rfl

/-- A text without a direction is refused. -/
theorem direction_refused (h : direction (Text.lower text) (words text) = .error e) :
    ∃ fault, e = .invalidJson fault := by
  unfold direction at h
  split at h
  · exact ⟨_, (Except.error.inj h).symm⟩
  · cases h
  · cases h
  · split at h
    · cases h
    · exact ⟨_, (Except.error.inj h).symm⟩

/-- A number of seconds, counted into a direction. -/
def Direction.signed : Direction → Int → Int
  | .future, seconds => seconds
  | .past, seconds => -seconds
  | .present, _ => 0

/-- What is found at a distance into a direction. -/
def move (now : Timestamp) (d : Direction) (seconds : Int) : Result Timestamp :=
  match d with
  | .future | .past => now.addSeconds (d.signed seconds)
  | .present => .ok now

/-- A relative time is resolved in three steps: its direction, the sum of its pairs, and the move.
-/
theorem resolve_eq (text : String) (now : Timestamp) : resolve text now =
    (direction (Text.lower text) (words text)).bind fun said =>
      if said.2.length % 2 ≠ 0 then .error (.invalidJson .relativeDangling)
      else (sumPairs 0 said.2).bind fun seconds => move now said.1 seconds := by
  unfold resolve
  change (direction (Text.lower text) (words text)).bind _ = _
  congr 1
  funext said
  obtain ⟨d, spoken⟩ := said
  dsimp only
  split
  next => rfl
  next =>
    change (sumPairs 0 spoken).bind _ = _
    congr 1
    funext seconds
    cases d <;> rfl

/-- A text that says a distance is resolved by moving over the wrapped distance. -/
theorem resolve_eq_move (h : Says text d spans) (now : Timestamp) :
    resolve text now = move now d (wrap (distance spans)) := by
  obtain ⟨spoken, hphrase, hpairs⟩ := h
  have hsum : sumPairs 0 spoken = .ok (wrap (distance spans)) := by
    have hzero : wrap 0 = 0 := by decide
    rw [← hzero, sumPairs_of_pairs hpairs, Int.zero_add]
  rw [resolve_eq, direction_eq_ok.mpr hphrase, Except.bind,
    if_neg (not_not.mpr (length_even hpairs)), hsum]
  rfl

/-- A text that says no distance is refused. -/
theorem resolve_refused (h : ∀ d spans, ¬ Says text d spans) (now : Timestamp) :
    ∃ fault, resolve text now = .error (.invalidJson fault) := by
  rw [resolve_eq]
  cases hdirection : direction (Text.lower text) (words text) with
  | error e =>
    obtain ⟨fault, rfl⟩ := direction_refused hdirection
    exact ⟨fault, rfl⟩
  | ok said =>
    obtain ⟨d, spoken⟩ := said
    have hphrase := direction_eq_ok.mp hdirection
    rw [Except.bind]
    split
    next => exact ⟨_, rfl⟩
    next heven =>
      -- an even number of words with a sum is made of pairs, so the text would say a distance
      cases hsum : sumPairs 0 spoken with
      | error e =>
        obtain ⟨fault, rfl⟩ := sumPairs_refused hsum
        exact ⟨fault, rfl⟩
      | ok seconds =>
        obtain ⟨spans, hpairs⟩ := exists_pairs hsum (not_not.mp heven)
        exact absurd ⟨spoken, hphrase, hpairs⟩ (h d spans)

/-- What lies at a distance into a direction, in or outside the calendar. -/
def reached (now : Timestamp) (d : Direction) (seconds : Int) : Timestamp :=
  { now with wall := now.wall + d.signed seconds * nanosPerSecond }

/-- Where there is no direction nothing is moved. -/
theorem reached_present (now : Timestamp) (seconds : Int) : reached now .present seconds = now := by
  rw [reached, Direction.signed, Int.zero_mul, Int.add_zero]

/-- Into a direction, different distances lead to different moments. -/
theorem reached_inj (hd : d ≠ .present) (h : reached now d a = reached now d b) : a = b := by
  have hwall := congrArg Timestamp.wall h
  unfold reached nanosPerSecond at hwall
  cases d with
  | future | past =>
    unfold Direction.signed at hwall
    dsimp only at hwall
    omega
  | present => exact absurd rfl hd

/-- Moving gives what is reached, if it lies in the calendar. -/
theorem move_eq (hnow : Timestamp.inCalendar now.wall = true) (d : Direction) (seconds : Int) :
    move now d seconds = if Timestamp.inCalendar (reached now d seconds).wall
      then .ok (reached now d seconds) else .error .calendarLeft := by
  cases d with
  | future | past => rfl
  | present => rw [reached_present, if_pos hnow, move]

/-- The wrapped distance reaches what the distance reaches only if nothing is wrapped. -/
theorem reached_wrap_iff (h : Says text d spans) (now : Timestamp) :
    reached now d (wrap (distance spans)) = reached now d (distance spans)
      ↔ FitsWord (distance spans) := by
  rw [← wrap_eq_self_iff]
  constructor
  · intro heq
    cases d with
    | future | past => exact reached_inj (by nofun) heq
    | present =>
      -- "now" says no distance, so there is nothing to wrap
      obtain ⟨_, hphrase, hpairs⟩ := h
      cases hphrase
      cases hpairs
      rfl
  · intro heq
    rw [heq]

/-- A text names the moment at its distance just if the distance is a 64-bit word and the moment
lies in the calendar. -/
theorem resolve_eq_reached_iff (h : Says text d spans)
    (hnow : Timestamp.inCalendar now.wall = true) :
    resolve text now = .ok (reached now d (distance spans))
      ↔ FitsWord (distance spans) ∧ Timestamp.inCalendar (reached now d (distance spans)).wall := by
  rw [resolve_eq_move h, move_eq hnow, ← reached_wrap_iff h now]
  constructor
  · intro heq
    split at heq
    next hin =>
      have hreached := Except.ok.inj heq
      exact ⟨hreached, hreached ▸ hin⟩
    next => cases heq
  · rintro ⟨heq, hin⟩
    rw [heq, if_pos hin]

/-- There is no answer just if the wrapped distance leads out of the calendar. -/
theorem resolve_eq_calendarLeft_iff (h : Says text d spans)
    (hnow : Timestamp.inCalendar now.wall = true) :
    resolve text now = .error .calendarLeft
      ↔ ¬ Timestamp.inCalendar (reached now d (wrap (distance spans))).wall := by
  rw [resolve_eq_move h, move_eq hnow]
  split
  next hin => exact iff_of_false nofun (not_not.mpr hin)
  next hout => exact iff_of_true rfl hout

/-- What a relative time names lies in the calendar, and is read off a clock like that of `now`. -/
theorem resolve_eq_ok {t : Timestamp} (hnow : Timestamp.inCalendar now.wall = true)
    (h : resolve text now = .ok t) :
    Timestamp.inCalendar t.wall = true ∧ t.offset = now.offset := by
  by_cases hsaid : ∃ d spans, Says text d spans
  · obtain ⟨d, spans, hsaid⟩ := hsaid
    rw [resolve_eq_move hsaid, move_eq hnow] at h
    split at h
    next hin =>
      cases h
      exact ⟨hin, rfl⟩
    next => cases h
  · obtain ⟨fault, hrefused⟩ := resolve_refused (fun d spans h => hsaid ⟨d, spans, h⟩) now
    exact absurd (hrefused.symm.trans h) nofun

end RelativeTime

/-! ## Bounds of queries -/

namespace FieldRef

open RelativeTime

variable {f : FieldRef} {text : String} {now : Timestamp} {bound : Json}

/-- A date is compared with the moment that a relative time names, if it names one. -/
theorem compareBound_relative (hdate : f.type = some .date)
    (hbound : bound.get? "$relativeTime" = some (.str text))
    (hnow : Timestamp.inCalendar now.wall = true) (huniversal : now.offset = 0)
    (comparator : Comparator) : f.compareBound now comparator bound = (resolve text now).map
      fun t => f.compareValue comparator.sign (.ofDate (Timestamp.isoText t.utc)) := by
  rw [compareBound, hbound]
  dsimp only
  rw [relativeDate, if_neg (not_not.mpr hdate)]
  cases hresolve : resolve text now with
  | error e =>
    dsimp only [Json.str?, OperandFault.demand, bind, Except.bind, pure, Except.pure]
    rw [hresolve]
    rfl
  | ok t =>
    obtain ⟨hin, hoffset⟩ := resolve_eq_ok hnow hresolve
    have hiso : t.toIso = .ok (Timestamp.isoText t.utc) := by
      have hutc : t.utc = t.wall := by
        rw [Timestamp.utc, hoffset, huniversal, Int.zero_mul, Int.sub_zero]
      rw [Timestamp.toIso, hutc, if_pos hin]
    dsimp only [Json.str?, OperandFault.demand, bind, Except.bind, pure, Except.pure]
    rw [hresolve]
    dsimp only
    rw [hiso]
    rfl

end FieldRef

namespace RelativeTime

variable {now : Timestamp}

/-- A text that says no distance is refused. A text that says a distance names the moment at this
distance, exactly, if and only if the distance is a 64-bit word of seconds and the moment lies in
the calendar. Otherwise the wrapped distance counts: there is no answer if it leads out of the
calendar, and then none either to a query that compares a date with the relative time. -/
theorem resolve_exact_iff (text : String) (hnow : Timestamp.inCalendar now.wall = true) :
    ((∀ d spans, ¬ Says text d spans) → ∃ fault, resolve text now = .error (.invalidJson fault))
    ∧ ∀ d spans, Says text d spans →
      (resolve text now = .ok (reached now d (distance spans))
        ↔ FitsWord (distance spans) ∧ Timestamp.inCalendar (reached now d (distance spans)).wall)
      ∧ (resolve text now = if Timestamp.inCalendar (reached now d (wrap (distance spans))).wall
        then .ok (reached now d (wrap (distance spans))) else .error .calendarLeft)
      ∧ ∀ (f : FieldRef) (comparator : Comparator) (bound : Json), f.type = some .date →
        bound.get? "$relativeTime" = some (.str text) → now.offset = 0 →
        (f.compareBound now comparator bound = .error .calendarLeft
          ↔ ¬ Timestamp.inCalendar (reached now d (wrap (distance spans))).wall) := by
  constructor
  · intro h
    exact resolve_refused h now
  · intro d spans h
    refine ⟨resolve_eq_reached_iff h hnow, ?_, ?_⟩
    · rw [resolve_eq_move h, move_eq hnow]
    · intro f comparator bound hdate hbound huniversal
      rw [FieldRef.compareBound_relative hdate hbound hnow huniversal,
        ← resolve_eq_calendarLeft_iff h hnow]
      cases resolve text now with
      | ok t => simp [Except.map]
      | error e => simp [Except.map]

/-- The first moment of 10 January 2024. -/
def midnight : Timestamp := ⟨1704844800 * nanosPerSecond, 0⟩

/-- A text of three words says the distance of its one pair. -/
theorem says_of_pair {text : String} (number unit : String) {amount seconds : Int}
    (hwords : words text = ["in", number, unit]) (hlast : unit ≠ "ago")
    (hnumber : readInteger? number = some amount) (hunit : unitSeconds? unit = some seconds) :
    Says text .future [(amount, seconds)] := by
  have hphrase : Phrase text .future [number, unit] := by
    refine .future hwords ?_
    rw [hwords]
    intro hago
    exact hlast (Option.some.inj hago)
  exact ⟨[number, unit], hphrase, .cons hnumber hunit .nil⟩

/-- Two days are reached exactly. -/
theorem twoDays_resolve_exact : Timestamp.inCalendar midnight.wall = true
    ∧ Says "In 2 days" .future [(2, 86400)]
    ∧ resolve "In 2 days" midnight = .ok (reached midnight .future 172800) := by
  have hsaid : Says "In 2 days" .future [(2, 86400)] :=
    says_of_pair "2" "days" (by decide +kernel) (by decide) (by decide +kernel) (by decide +kernel)
  have hnow : Timestamp.inCalendar midnight.wall = true := by decide +kernel
  have hreached : Timestamp.inCalendar (reached midnight .future 172800).wall = true := by
    decide +kernel
  have hfits : FitsWord (distance [(2, 86400)]) := ⟨by decide, by decide⟩
  obtain ⟨-, hexact⟩ := resolve_exact_iff "In 2 days" hnow
  obtain ⟨hiff, -, -⟩ := hexact _ _ hsaid
  exact ⟨hnow, hsaid, hiff.mpr ⟨hfits, hreached⟩⟩

/-- So many years that their seconds wrap around lead one year back, and nine thousand years lead
out of the calendar: there is no answer at all, also not to a query that compares a date with it. -/
theorem manyYears_not_exact :
    (Says "in 9223372036854775807 years" .future [(9223372036854775807, 31536000)]
      ∧ resolve "in 9223372036854775807 years" midnight = .ok (reached midnight .past 31536000))
    ∧ Says "in 9000 years" .future [(9000, 31536000)]
      ∧ resolve "in 9000 years" midnight = .error .calendarLeft
      ∧ FieldRef.compareBound ⟨"createdAt", some .date, false⟩ midnight .greater
          (.obj [("$relativeTime", .str "in 9000 years")]) = .error .calendarLeft := by
  have hwrapped : Says "in 9223372036854775807 years" .future [(9223372036854775807, 31536000)] :=
    says_of_pair "9223372036854775807" "years" (by decide +kernel) (by decide) (by decide +kernel)
      (by decide +kernel)
  have hleft : Says "in 9000 years" .future [(9000, 31536000)] :=
    says_of_pair "9000" "years" (by decide +kernel) (by decide) (by decide +kernel)
      (by decide +kernel)
  have hresolve : resolve "in 9000 years" midnight = .error .calendarLeft := by
    have hwrap : wrap (distance [(9000, 31536000)]) = 283824000000 := by decide +kernel
    rw [resolve_eq_move hleft, hwrap]
    rfl
  refine ⟨⟨hwrapped, ?_⟩, hleft, hresolve, ?_⟩
  · have hwrap : wrap (distance [(9223372036854775807, 31536000)]) = -31536000 := by decide +kernel
    rw [resolve_eq_move hwrapped, hwrap]
    rfl
  · have hbound : (Json.obj [("$relativeTime", .str "in 9000 years")]).get? "$relativeTime"
        = some (.str "in 9000 years") := rfl
    rw [FieldRef.compareBound_relative rfl hbound (by decide +kernel) rfl, hresolve]
    rfl

end RelativeTime

end ObjectStore
