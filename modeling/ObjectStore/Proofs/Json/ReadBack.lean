import ObjectStore.Json.Reader
import ObjectStore.Json.Text
import ObjectStore.Proofs.Decimal.Written

/-!
# JSON text is read back

What `Json.compact` writes for a value is read as that value (`readAll?_compact`), as long as JSON
has its numbers: integers of 64 bits and finite doubles. Every reader is run on the text of its part
with something behind it, and gives that something back; numbers are the only part whose end is not
marked, so what is behind a value may not continue one (`Stops`). The length of the text bounds both
the steps and the depth that a reader needs.
-/

namespace ObjectStore.Json

open Decimal

/-- JSON has all the numbers in a value: integers of 64 bits, with a sign or without, and finite
doubles. -/
inductive Representable : Json → Prop where
  | null : Representable .null
  | bool (b : Bool) : Representable (.bool b)
  | int {n : Int} (least_le : -2 ^ 63 ≤ n) (lt_end : n < 2 ^ 64) : Representable (.int n)
  | double {x : Float} (isFinite : x.isFinite = true) : Representable (.double x)
  | str (s : String) : Representable (.str s)
  | arr {items : List Json} (inside : ∀ item ∈ items, Representable item) :
      Representable (.arr items)
  | obj {fields : List (String × Json)} (inside : ∀ entry ∈ fields, Representable entry.2) :
      Representable (.obj fields)

/-- JSON has every list of texts. -/
theorem representable_ofStrings (texts : List String) : (ofStrings texts).Representable := by
  refine .arr ?_
  intro item hitem
  obtain ⟨text, _, rfl⟩ := List.mem_map.mp hitem
  exact .str text

mutual

/-- Whether JSON has all the numbers in a value. -/
def isRepresentable : Json → Bool
  | .int n => -2 ^ 63 ≤ n && n < 2 ^ 64
  | .double x => x.isFinite
  | .arr items => itemsAreRepresentable items
  | .obj fields => membersAreRepresentable fields
  | _ => true

/-- Whether JSON has all the numbers in all items. -/
def itemsAreRepresentable : List Json → Bool
  | [] => true
  | item :: rest => isRepresentable item && itemsAreRepresentable rest

/-- Whether JSON has all the numbers in the values of all members. -/
def membersAreRepresentable : List (String × Json) → Bool
  | [] => true
  | (_, value) :: rest => isRepresentable value && membersAreRepresentable rest

end

mutual

/-- The check is right about values. -/
theorem representable_of_isRepresentable {value : Json} (h : value.isRepresentable = true) :
    value.Representable := by
  match value with
  | .null => exact .null
  | .bool b => exact .bool b
  | .int n =>
    rw [isRepresentable, Bool.and_eq_true, decide_eq_true_iff, decide_eq_true_iff] at h
    exact .int h.1 h.2
  | .double x => exact .double h
  | .str s => exact .str s
  | .arr items => exact .arr (forall_of_itemsAreRepresentable h)
  | .obj fields => exact .obj (forall_of_membersAreRepresentable h)

/-- The check is right about all items of a list. -/
theorem forall_of_itemsAreRepresentable {items : List Json}
    (h : itemsAreRepresentable items = true) : ∀ item ∈ items, item.Representable := by
  match items with
  | [] => exact List.forall_mem_nil _
  | item :: rest =>
    rw [itemsAreRepresentable, Bool.and_eq_true] at h
    exact List.forall_mem_cons.mpr
      ⟨representable_of_isRepresentable h.1, forall_of_itemsAreRepresentable h.2⟩

/-- The check is right about what stands under all names. -/
theorem forall_of_membersAreRepresentable {fields : List (String × Json)}
    (h : membersAreRepresentable fields = true) : ∀ entry ∈ fields, entry.2.Representable := by
  match fields with
  | [] => exact List.forall_mem_nil _
  | (key, value) :: rest =>
    rw [membersAreRepresentable, Bool.and_eq_true] at h
    exact List.forall_mem_cons.mpr
      ⟨representable_of_isRepresentable h.1, forall_of_membersAreRepresentable h.2⟩

end

/-- What is behind a value does not continue a number. -/
def Stops (rest : List Char) : Prop := ∀ c ∈ rest.head?, c = ',' ∨ c = ']' ∨ c = '\x7d'

/-- A number ends where the text does. -/
theorem stops_nil : Stops [] := by
  rintro c ⟨⟩

/-- A comma or a closing bracket ends a number. -/
theorem stops_cons {c : Char} (h : c = ',' ∨ c = ']' ∨ c = '\x7d') (rest : List Char) :
    Stops (c :: rest) := by
  rintro c' ⟨⟩
  exact h

/-- What ends a number is no digit. -/
theorem Stops.isDigit {rest : List Char} (h : Stops rest) :
    ∀ c ∈ rest.head?, c.isDigit = false := by
  intro c hc
  rcases h c hc with rfl | rfl | rfl <;> decide

/-! ## Numbers -/

section Numbers

variable {w : Written} {rest : List Char} {x : Float} {fuel depth : Nat}

/-- What comes behind a fraction is no digit and no point. -/
theorem head?_exponentText_append (w : Written) (hrest : Stops rest) :
    ∀ c ∈ (w.exponentText ++ rest).head?, c.isDigit = false ∧ c ≠ '.' := by
  intro c hc
  rcases w.exponentText_cases with hnone | ⟨s, hsome⟩
  · rw [hnone] at hc
    rcases hrest c hc with rfl | rfl | rfl <;> decide
  · rw [hsome] at hc
    cases hc
    decide

/-- What comes behind the whole digits is no digit. -/
theorem head?_fractionText_append (w : Written) (hrest : Stops rest) :
    ∀ c ∈ (w.fractionText ++ (w.exponentText ++ rest)).head?, c.isDigit = false := by
  intro c hc
  rw [Written.fractionText] at hc
  split at hc
  · exact (head?_exponentText_append w hrest c hc).1
  · cases hc
    decide

/-- The reader of a fraction reads the one that was written, and leaves the exponent. -/
theorem readFraction?_append (hw : w.WellFormed) (hrest : Stops rest) :
    readFraction? (w.fractionText ++ (w.exponentText ++ rest))
      = some (w.fraction, w.exponentText ++ rest) := by
  have hhead := head?_exponentText_append w hrest
  rw [Written.fractionText]
  split
  -- without a fraction there is no point, as neither an exponent nor what ends a number starts with
  -- one
  next hempty =>
    rw [List.nil_append, readFraction?, hempty]
    intro s hpoint
    rw [hpoint] at hhead
    exact (hhead '.' rfl).2 rfl
  next hne =>
    have htake := takeDigits_append hw.isDigit_fraction fun c hc => (hhead c hc).1
    rw [List.cons_append, readFraction?, htake]
    dsimp only
    rw [List.isEmpty_eq_false_iff.mpr hne, if_neg Bool.false_ne_true]

/-- The reader of an exponent reads the one that was written, and leaves what ends the number. -/
theorem readExponent?_append (hw : w.WellFormed) (hrest : Stops rest) :
    readExponent? (w.exponentText ++ rest) = some (w.exponent?, rest) := by
  unfold Written.exponentText Written.exponent?
  cases hexponent : w.exponent with
  | none =>
    cases rest with
    | nil => rfl
    | cons c rest =>
      -- nothing that ends a number is taken for the mark of an exponent
      have hmark : ¬ (c = 'e' ∨ c = 'E') := by
        rcases hrest c rfl with rfl | rfl | rfl <;> decide
      exact if_neg hmark
  | some e =>
    obtain ⟨negative, digits⟩ := e
    have hne := hw.exponent_ne_nil _ hexponent
    have htake := takeDigits_append (hw.isDigit_exponent _ hexponent) hrest.isDigit
    dsimp only
    rw [List.cons_append, List.cons_append, readExponent?, if_pos (Or.inl rfl), takeSign_exponent]
    dsimp only
    rw [htake]
    dsimp only
    rw [List.isEmpty_eq_false_iff.mpr hne, if_neg Bool.false_ne_true]
    rfl

/-- A number is taken apart into the parts that it was written from. -/
theorem splitNumeral?_append (hw : w.WellFormed) (hplain : w.StartsPlainly) (hrest : Stops rest) :
    splitNumeral? (w.text ++ rest)
      = some (⟨w.negative, w.whole, w.fraction, w.exponent?⟩, rest) := by
  have htake := takeDigits_append hw.isDigit_whole (head?_fractionText_append w hrest)
  have hwhole : (w.whole.isEmpty || (w.whole.length > 1 && w.whole.head? == some '0')) = false := by
    rw [List.isEmpty_eq_false_iff.mpr hw.whole_ne_nil, Bool.false_or, Bool.and_eq_false_iff]
    rcases hplain with hone | hhead
    · exact Or.inl (by rw [hone]; rfl)
    · exact Or.inr (beq_eq_false_iff_ne.mpr hhead)
  have hdigits : w.unsigned ++ rest = w.whole ++ (w.fractionText ++ (w.exponentText ++ rest)) := by
    rw [Written.unsigned, List.append_assoc, List.append_assoc]
  have hfraction := readFraction?_append hw hrest
  have hexponent := readExponent?_append hw hrest
  obtain ⟨c, s, hcons, hc⟩ := Written.exists_cons_unsigned hw
  unfold splitNumeral?
  rw [Written.text]
  -- a minus is taken off first; without one the text starts with a digit
  cases w.negative with
  | true =>
    rw [if_pos rfl, List.cons_append, hdigits]
    simp only [htake, hwhole, Bool.false_eq_true, if_false, hfraction, Option.bind_eq_bind,
      Option.bind_some, hexponent]
    rfl
  | false =>
    rw [if_neg Bool.false_ne_true]
    split
    next negative s' hsign =>
      split at hsign
      next hminus =>
        rw [hcons] at hminus
        cases hminus
        exact absurd hc (by decide)
      next =>
        cases hsign
        rw [hdigits]
        simp only [htake, hwhole, Bool.false_eq_true, if_false, hfraction, Option.bind_eq_bind,
          Option.bind_some, hexponent]
        rfl

/-- The text of a finite double is read as that double: it has a point or an exponent, so it is no
integer, and the double is the nearest one to what it says. -/
theorem readNumber?_double (hx : x.isFinite = true) (hrest : Stops rest) :
    readNumber? ((Layout.json.write x).toList ++ rest) = some (.double x, rest) := by
  obtain ⟨w, hw, hplain, htext, hnames, hmarked⟩ := exists_written Layout.json hx
  have hnearest := nearest_eq hnames
  have hmarked : (w.fraction.isEmpty && w.exponent?.isNone) = false := by
    rw [Bool.and_eq_false_iff]
    rcases hmarked rfl with hfraction | hexponent
    · exact Or.inl (List.isEmpty_eq_false_iff.mpr hfraction)
    · refine Or.inr ?_
      rw [Written.exponent?, Option.isNone_map, Option.isNone_eq_false_iff,
        Option.isSome_iff_ne_none]
      exact hexponent
  unfold readNumber?
  rw [htext, splitNumeral?_append hw hplain hrest]
  simp only [Option.bind_eq_bind, Option.bind_some]
  rw [Numeral.value?, hmarked, if_neg Bool.false_ne_true, hnearest, finite?, if_pos hx]
  rfl

/-- The text of an integer as a written decimal. -/
def writtenInt (n : Int) : Written := ⟨decide (n < 0), Nat.toDigits 10 n.natAbs, [], none⟩

/-- The written decimal of an integer is its text. -/
theorem text_writtenInt (n : Int) : (writtenInt n).text = (toString n).toList := by
  have hunsigned : (writtenInt n).unsigned = Nat.toDigits 10 n.natAbs := List.append_nil _
  rw [Written.text, hunsigned]
  cases n with
  | ofNat n =>
    change Nat.toDigits 10 n = n.repr.toList
    rw [Nat.toList_repr]
  | negSucc n =>
    refine (if_pos (decide_eq_true (Int.negSucc_lt_zero n))).trans ?_
    change '-' :: Nat.toDigits 10 (n + 1) = ("-" ++ (n + 1).repr).toList
    rw [String.toList_append, Nat.toList_repr]
    rfl

/-- The written decimal of an integer has digits only. -/
theorem wellFormed_writtenInt (n : Int) : (writtenInt n).WellFormed :=
  ⟨Nat.toDigits_ne_nil, isDigit_of_mem_toDigits, by rintro c ⟨⟩, by rintro e ⟨⟩, by rintro e ⟨⟩⟩

/-- The text of an integer has no leading zero. -/
theorem startsPlainly_writtenInt (n : Int) : (writtenInt n).StartsPlainly := by
  by_cases hn : n.natAbs = 0
  · refine Or.inl ?_
    rw [writtenInt, hn]
    rfl
  · exact Or.inr (head?_toDigits hn)

/-- The text of an integer is read as that integer, if it has 64 bits. -/
theorem readNumber?_int {n : Int} (hleast : -2 ^ 63 ≤ n) (hend : n < 2 ^ 64) (hrest : Stops rest) :
    readNumber? ((toString n).toList ++ rest) = some (.int n, rest) := by
  unfold readNumber?
  rw [← text_writtenInt, splitNumeral?_append (wellFormed_writtenInt n) (startsPlainly_writtenInt n)
    hrest]
  simp only [Option.bind_eq_bind, Option.bind_some]
  have hvalue : Numeral.value? ⟨decide (n < 0), Nat.toDigits 10 n.natAbs, [], none⟩
      = some (.int n) := by
    change ofInteger? (decide (n < 0)) (ofDigits (Nat.toDigits 10 n.natAbs)) = _
    rw [ofDigits_toDigits, ofInteger?]
    -- a negative one is bounded by the signed integers, another one by the unsigned ones
    by_cases hn : n < 0
    · have hne : n.natAbs ≠ 0 := by omega
      have habs : -(n.natAbs : Int) = n := by omega
      have hleast : Int64.minValue.toInt ≤ n := hleast
      rw [if_pos (decide_eq_true hn), if_neg hne, habs, if_pos hleast]
    · have hlt : n.natAbs < UInt64.size := by
        change n.natAbs < 18446744073709551616
        omega
      have habs : (n.natAbs : Int) = n := by omega
      rw [if_neg (mt of_decide_eq_true hn), if_pos hlt, habs]
  exact congrArg (Option.bind · _) hvalue

end Numbers

/-! ## Strings -/

section Strings

variable {rest collected : List Char} {fuel : Nat}

/-- The escape of a character has a character. -/
theorem one_le_length_escapeChar (c : Char) : 1 ≤ (escapeChar c).length := by
  unfold escapeChar
  split
  case h_8 => split <;> exact Nat.le_add_left _ _
  all_goals exact Nat.le_add_left _ _

/-- A hexadecimal digit has its value. -/
theorem hexValue?_hexDigit : ∀ n < 16, hexValue? (hexDigit n) = some n := by decide

/-- The escape of a control character is read. -/
theorem readCodePoint?_control {c : Char} (h : c.toNat < 32) :
    readCodePoint? ('0' :: '0' :: hexDigit (c.toNat / 16) :: hexDigit (c.toNat % 16) :: rest)
      = some (c, rest) := by
  have hunit : readUnit? ('0' :: '0' :: hexDigit (c.toNat / 16) :: hexDigit (c.toNat % 16) :: rest)
      = some (c.toNat, rest) := by
    have hzero : hexValue? '0' = some 0 := by decide
    have hsum : ((0 * 16 + 0) * 16 + c.toNat / 16) * 16 + c.toNat % 16 = c.toNat := by omega
    simp only [readUnit?, hzero, hexValue?_hexDigit (c.toNat / 16) (by omega),
      hexValue?_hexDigit (c.toNat % 16) (by omega), Option.bind_eq_bind, Option.bind_some, hsum]
    rfl
  unfold readCodePoint?
  rw [hunit]
  simp only [Option.bind_eq_bind, Option.bind_some]
  rw [if_pos (Or.inl (by omega)), Char.ofNat_toNat]
  rfl

/-- An escaped character is read in one step. -/
theorem readString?_escapeChar (c : Char) :
    readString? (fuel + 1) collected (escapeChar c ++ rest)
      = readString? fuel (c :: collected) rest := by
  unfold escapeChar
  split
  case h_8 _ hquote hback _ _ _ _ _ =>
    split
    next hlow =>
      simp only [List.cons_append, List.nil_append, readString?, readCodePoint?_control hlow,
        Option.bind_eq_bind, Option.bind_some]
    next hlow =>
      rw [List.singleton_append, readString?]
      · exact if_neg hlow
      · exact hquote
      · exact fun _ hc => absurd hc hback
      · exact fun _ _ hc => absurd hc hback
  all_goals rfl

/-- Characters that were escaped one by one are read one by one, and collected in reverse. -/
theorem readString?_quoted (s : List Char) (h : s.length < fuel) :
    readString? fuel collected (s.flatMap escapeChar ++ '"' :: rest)
      = some (String.ofList (collected.reverse ++ s), rest) := by
  induction s generalizing fuel collected with
  | nil =>
    obtain ⟨fuel, rfl⟩ := Nat.exists_eq_succ_of_ne_zero (Nat.ne_of_gt h)
    rw [List.append_nil]
    rfl
  | cons c s ih =>
    obtain ⟨fuel, rfl⟩ := Nat.exists_eq_succ_of_ne_zero (Nat.ne_zero_of_lt h)
    rw [List.flatMap_cons, List.append_assoc, readString?_escapeChar, ih (Nat.lt_of_succ_lt_succ h),
      List.reverse_cons, List.append_assoc]
    rfl

/-- Behind its opening quote, a quoted string is read to its end. -/
theorem exists_quote (s : String) : ∃ text, (quote s).toList = '"' :: text ∧
    ∀ rest, readString? ((text ++ rest).length + 1) [] (text ++ rest) = some (s, rest) := by
  refine ⟨s.toList.flatMap escapeChar ++ ['"'], by rw [quote, String.toList_ofList], ?_⟩
  intro rest
  have hlength : s.toList.length ≤ (s.toList.flatMap escapeChar).length := by
    rw [List.length_flatMap, ← List.length_map fun c => (escapeChar c).length]
    refine List.length_le_sum_of_one_le _ ?_
    intro n hn
    obtain ⟨c, _, rfl⟩ := List.mem_map.mp hn
    exact one_le_length_escapeChar c
  rw [List.append_assoc, List.singleton_append,
    readString?_quoted s.toList (by rw [List.length_append]; omega), List.reverse_nil,
    List.nil_append, String.ofList_toList]

end Strings

/-! ## Values -/

section Values

/-- Nothing is skipped before what is no blank. -/
theorem skipBlanks_cons {c : Char} (h : isBlank c = false) (s : List Char) :
    skipBlanks (c :: s) = c :: s := by
  rw [skipBlanks, List.dropWhile_cons, h, if_neg Bool.false_ne_true]

/-- A number starts with no blank. -/
theorem isBlank_eq_false {c : Char} (hc : c = '-' ∨ c.isDigit = true) : isBlank c = false := by
  simp only [isBlank, Bool.or_eq_false_iff, decide_eq_false_iff_not]
  refine ⟨⟨⟨?_, ?_⟩, ?_⟩, ?_⟩ <;>
    · rintro rfl
      exact absurd hc (by decide)

/-- A value that starts with a minus or a digit is a number. -/
theorem readValue?_number {c : Char} (hc : c = '-' ∨ c.isDigit = true) (fuel depth : Nat)
    (s : List Char) : readValue? (fuel + 1) depth (c :: s) = readNumber? (c :: s) := by
  rw [readValue?, skipBlanks_cons (isBlank_eq_false hc)]
  split
  case h_7 => rfl
  -- the other starts are characters of their own, none of which a number starts with
  all_goals
    next heq =>
      cases heq
      exact absurd hc (by decide)

/-- A bracket that is not closed at once opens items. -/
theorem readValue?_array {c : Char} (hblank : isBlank c = false) (hend : c ≠ ']')
    (fuel depth : Nat) (s : List Char) : readValue? (fuel + 1) (depth + 1) ('[' :: c :: s)
      = (readItems? fuel depth (c :: s)).map fun read => (.arr read.1, read.2) := by
  rw [readValue?, skipBlanks_cons (by decide)]
  split
  case h_5 heq =>
    cases heq
    rw [if_neg (Nat.succ_ne_zero depth), skipBlanks_cons hblank]
    split
    next heq =>
      cases heq
      exact absurd rfl hend
    next => rfl
  case h_7 _ _ _ _ hother _ => exact absurd rfl (hother _)
  all_goals
    next heq => cases heq

/-- A brace that is not closed at once opens members. -/
theorem readValue?_object {c : Char} (hblank : isBlank c = false) (hend : c ≠ '\x7d')
    (fuel depth : Nat) (s : List Char) : readValue? (fuel + 1) (depth + 1) ('\x7b' :: c :: s)
      = (readFields? fuel depth (c :: s)).map fun read => (.obj read.1, read.2) := by
  rw [readValue?, skipBlanks_cons (by decide)]
  split
  case h_6 heq =>
    cases heq
    rw [if_neg (Nat.succ_ne_zero depth), skipBlanks_cons hblank]
    split
    next heq =>
      cases heq
      exact absurd rfl hend
    next => rfl
  case h_7 _ _ _ _ _ hother => exact absurd rfl (hother _)
  all_goals
    next heq => cases heq

/-- A quote opens a string. -/
theorem readValue?_string (fuel depth : Nat) (s : List Char) :
    readValue? (fuel + 1) depth ('"' :: s)
      = (readString? (s.length + 1) [] s).map fun read => (.str read.1, read.2) := rfl

/-- The characters of `null`. -/
theorem toList_null : (compact .null).toList = ['n', 'u', 'l', 'l'] :=
  (String.toList_ofList : (String.ofList ['n', 'u', 'l', 'l']).toList = _)

/-- The characters of `true`. -/
theorem toList_true : (compact (.bool true)).toList = ['t', 'r', 'u', 'e'] :=
  (String.toList_ofList : (String.ofList ['t', 'r', 'u', 'e']).toList = _)

/-- The characters of `false`. -/
theorem toList_false : (compact (.bool false)).toList = ['f', 'a', 'l', 's', 'e'] :=
  (String.toList_ofList : (String.ofList ['f', 'a', 'l', 's', 'e']).toList = _)

theorem toList_openBracket : "[".toList = ['['] :=
  (String.toList_ofList : (String.ofList ['[']).toList = _)

theorem toList_openBrace : "\x7b".toList = ['\x7b'] :=
  (String.toList_ofList : (String.ofList ['\x7b']).toList = _)

/-- The text of a number starts with a minus or a digit. -/
theorem exists_cons_text {w : Written} (hw : w.WellFormed) :
    ∃ c s, w.text = c :: s ∧ (c = '-' ∨ c.isDigit = true) := by
  obtain ⟨c, s, hcons, hc⟩ := Written.exists_cons_unsigned hw
  rw [Written.text]
  cases w.negative with
  | true => exact ⟨'-', _, rfl, Or.inl rfl⟩
  | false => exact ⟨c, s, hcons, Or.inr hc⟩

/-- What the text of a value starts with is no blank and closes no array. -/
theorem exists_cons_compact {v : Json} (h : v.Representable) :
    ∃ c s, v.compact.toList = c :: s ∧ isBlank c = false ∧ c ≠ ']' := by
  have hnumber {c : Char} (hc : c = '-' ∨ c.isDigit = true) : isBlank c = false ∧ c ≠ ']' := by
    refine ⟨isBlank_eq_false hc, ?_⟩
    rintro rfl
    exact absurd hc (by decide)
  cases h with
  | null => exact ⟨'n', _, toList_null, by decide⟩
  | bool b =>
    cases b with
    | true => exact ⟨'t', _, toList_true, by decide⟩
    | false => exact ⟨'f', _, toList_false, by decide⟩
  | int _ _ =>
    rename_i n _ _
    obtain ⟨c, s, htext, hc⟩ := exists_cons_text (wellFormed_writtenInt n)
    rw [text_writtenInt] at htext
    exact ⟨c, s, htext, hnumber hc⟩
  | double hx =>
    rename_i x
    obtain ⟨w, hw, _, hwritten, _⟩ := exists_written Layout.json hx
    obtain ⟨c, s, htext, hc⟩ := exists_cons_text hw
    rw [← hwritten] at htext
    rw [compact, if_pos hx]
    exact ⟨c, s, htext, hnumber hc⟩
  | str s =>
    obtain ⟨text, htext, _⟩ := exists_quote s
    exact ⟨'"', text, htext, by decide⟩
  | arr _ =>
    rw [compact, String.toList_append, String.toList_append]
    exact ⟨'[', _, congrArg (· ++ _) (congrArg (· ++ _) toList_openBracket), by decide⟩
  | obj _ =>
    rw [compact, String.toList_append, String.toList_append]
    exact ⟨'\x7b', _, congrArg (· ++ _) (congrArg (· ++ _) toList_openBrace), by decide⟩

/-- No value is written as the empty text. -/
theorem length_compact_pos {v : Json} (h : v.Representable) : 0 < v.compact.toList.length := by
  obtain ⟨c, s, htext, _⟩ := exists_cons_compact h
  rw [htext]
  exact Nat.succ_pos _

/-- `null` is read back. -/
theorem readValue?_null (fuel depth : Nat) (rest : List Char) :
    readValue? (fuel + 1) depth ((compact .null).toList ++ rest) = some (.null, rest) := by
  rw [toList_null]
  rfl

/-- A truth value is read back. -/
theorem readValue?_bool (b : Bool) (fuel depth : Nat) (rest : List Char) :
    readValue? (fuel + 1) depth ((compact (.bool b)).toList ++ rest) = some (.bool b, rest) := by
  cases b with
  | true =>
    rw [toList_true]
    rfl
  | false =>
    rw [toList_false]
    rfl

/-- An integer of 64 bits is read back. -/
theorem readValue?_int {n : Int} (hleast : -2 ^ 63 ≤ n) (hend : n < 2 ^ 64) (fuel depth : Nat)
    {rest : List Char} (hrest : Stops rest) :
    readValue? (fuel + 1) depth ((compact (.int n)).toList ++ rest) = some (.int n, rest) := by
  obtain ⟨c, s, htext, hc⟩ := exists_cons_text (wellFormed_writtenInt n)
  have hread := readNumber?_int hleast hend hrest
  rw [← text_writtenInt, htext, List.cons_append] at hread
  rw [compact, ← text_writtenInt, htext, List.cons_append, readValue?_number hc]
  exact hread

/-- A finite double is read back. -/
theorem readValue?_double {x : Float} (hx : x.isFinite = true) (fuel depth : Nat)
    {rest : List Char} (hrest : Stops rest) :
    readValue? (fuel + 1) depth ((compact (.double x)).toList ++ rest)
      = some (.double x, rest) := by
  obtain ⟨w, hw, _, hwritten, _⟩ := exists_written Layout.json hx
  obtain ⟨c, s, htext, hc⟩ := exists_cons_text hw
  have hread := readNumber?_double hx hrest
  rw [hwritten, htext, List.cons_append] at hread
  rw [compact, if_pos hx, hwritten, htext, List.cons_append, readValue?_number hc]
  exact hread

/-- A string is read back. -/
theorem readValue?_str (s : String) (fuel depth : Nat) (rest : List Char) :
    readValue? (fuel + 1) depth ((compact (.str s)).toList ++ rest) = some (.str s, rest) := by
  obtain ⟨text, htext, hread⟩ := exists_quote s
  rw [compact, htext, List.cons_append, readValue?_string, hread rest]
  rfl

/-- An array is written as its items between brackets. -/
theorem toList_arr (items : List Json) :
    (compact (.arr items)).toList = '[' :: ((compactItems items).toList ++ [']']) := by
  rw [compact, String.toList_append, String.toList_append]
  rfl

/-- An array without items is read back. -/
theorem readValue?_emptyArray (fuel depth : Nat) (rest : List Char) :
    readValue? (fuel + 1) (depth + 1) ('[' :: ((compactItems []).toList ++ ']' :: rest))
      = some (.arr [], rest) := by
  have hempty : (compactItems []).toList = [] := rfl
  rw [hempty]
  rfl

/-- An object without members is read back. -/
theorem readValue?_emptyObject (fuel depth : Nat) (rest : List Char) :
    readValue? (fuel + 1) (depth + 1) ('\x7b' :: ((compactFields []).toList ++ '\x7d' :: rest))
      = some (.obj [], rest) := by
  have hempty : (compactFields []).toList = [] := rfl
  rw [hempty]
  rfl

/-- What the text of some items starts with is no blank and closes no array. -/
theorem exists_cons_compactItems {item : Json} {items : List Json}
    (h : ∀ i ∈ item :: items, i.Representable) :
    ∃ c s, (compactItems (item :: items)).toList = c :: s ∧ isBlank c = false ∧ c ≠ ']' := by
  obtain ⟨c, s, htext, hc⟩ := exists_cons_compact (h item List.mem_cons_self)
  cases items with
  | nil => exact ⟨c, s, htext, hc⟩
  | cons next rest =>
    rw [compactItems, String.toList_append, String.toList_append, htext]
    exact ⟨c, _, rfl, hc⟩

/-- An object is written as its members between braces. -/
theorem toList_obj (fields : List (String × Json)) :
    (compact (.obj fields)).toList = '\x7b' :: ((compactFields fields).toList ++ ['\x7d']) := by
  rw [compact, String.toList_append, String.toList_append]
  rfl

/-- A reader of items goes on behind a comma. -/
theorem readItems?_comma {fuel depth : Nat} {s rest : List Char} {item : Json}
    (h : readValue? fuel depth s = some (item, ',' :: rest)) :
    readItems? (fuel + 1) depth s
      = (readItems? fuel depth rest).map fun read => (item :: read.1, read.2) := by
  rw [readItems?, h]
  simp only [Option.bind_eq_bind, Option.bind_some]
  rw [skipBlanks_cons (by decide)]
  change (readItems? fuel depth rest).bind (fun read => some (item :: read.1, read.2)) = _
  rw [Option.map_eq_bind]
  rfl

/-- A reader of items ends behind a closing bracket. -/
theorem readItems?_end {fuel depth : Nat} {s rest : List Char} {item : Json}
    (h : readValue? fuel depth s = some (item, ']' :: rest)) :
    readItems? (fuel + 1) depth s = some ([item], rest) := by
  rw [readItems?, h]
  simp only [Option.bind_eq_bind, Option.bind_some]
  rw [skipBlanks_cons (by decide)]
  rfl

section Members

variable {fuel depth : Nat} {s rest : List Char} {key : String} {value : Json}

/-- A reader of members goes on behind a comma. -/
theorem readFields?_comma (h : readValue? fuel depth s = some (value, ',' :: rest)) :
    readFields? (fuel + 1) depth ((quote key).toList ++ ':' :: s)
      = (readFields? fuel depth rest).map fun read => ((key, value) :: read.1, read.2) := by
  obtain ⟨text, htext, hread⟩ := exists_quote key
  rw [htext, List.cons_append, readFields?, skipBlanks_cons (by decide)]
  simp only [hread, Option.bind_eq_bind, Option.bind_some]
  rw [skipBlanks_cons (by decide)]
  simp only [h, Option.bind_some]
  rw [skipBlanks_cons (by decide), Option.map_eq_bind]
  rfl

/-- A reader of members ends behind a closing brace. -/
theorem readFields?_end (h : readValue? fuel depth s = some (value, '\x7d' :: rest)) :
    readFields? (fuel + 1) depth ((quote key).toList ++ ':' :: s)
      = some ([(key, value)], rest) := by
  obtain ⟨text, htext, hread⟩ := exists_quote key
  rw [htext, List.cons_append, readFields?, skipBlanks_cons (by decide)]
  simp only [hread, Option.bind_eq_bind, Option.bind_some]
  rw [skipBlanks_cons (by decide)]
  simp only [h, Option.bind_some]
  rw [skipBlanks_cons (by decide)]
  rfl

end Members

/-- Items are written with a comma after each but the last. -/
theorem toList_items (item next : Json) (rest : List Json) :
    (compactItems (item :: next :: rest)).toList
      = item.compact.toList ++ ',' :: (compactItems (next :: rest)).toList := by
  rw [compactItems, String.toList_append, String.toList_append, List.append_assoc]
  rfl

/-- A member is written as its quoted name, a colon and its value. -/
theorem toList_field (key : String) (value : Json) : (compactFields [(key, value)]).toList
    = (quote key).toList ++ ':' :: value.compact.toList := by
  rw [compactFields, String.toList_append, String.toList_append, List.append_assoc]
  rfl

/-- Members are written with a comma after each but the last. -/
theorem toList_fields (key : String) (value : Json) (next : String × Json)
    (rest : List (String × Json)) : (compactFields ((key, value) :: next :: rest)).toList
      = (quote key).toList ++ ':' :: (value.compact.toList
        ++ ',' :: (compactFields (next :: rest)).toList) := by
  rw [compactFields, String.toList_append, String.toList_append, String.toList_append,
    String.toList_append, List.append_assoc, List.append_assoc, List.append_assoc]
  rfl

/-- The text of some members starts with a quote. -/
theorem exists_cons_compactFields (fields : List (String × Json)) (hne : fields ≠ []) :
    ∃ s, (compactFields fields).toList = '"' :: s := by
  match fields, hne with
  | [(key, value)], _ =>
    obtain ⟨text, htext, _⟩ := exists_quote key
    rw [toList_field, htext]
    exact ⟨_, rfl⟩
  | (key, value) :: next :: rest, _ =>
    obtain ⟨text, htext, _⟩ := exists_quote key
    rw [toList_fields, htext]
    exact ⟨_, rfl⟩

mutual

/-- The text of a value is read as the value. -/
theorem readValue?_compact (v : Json) : ∀ {fuel depth : Nat} {rest : List Char}, v.Representable →
    v.compact.toList.length ≤ fuel + 1 → v.compact.toList.length ≤ depth → Stops rest →
    readValue? (fuel + 1) depth (v.compact.toList ++ rest) = some (v, rest) := by
  intro fuel depth rest h hfuel hdepth hrest
  cases v with
  | null => exact readValue?_null fuel depth rest
  | bool b => exact readValue?_bool b fuel depth rest
  | int n =>
    cases h with
    | int hleast hend => exact readValue?_int hleast hend fuel depth hrest
  | double x =>
    cases h with
    | double hx => exact readValue?_double hx fuel depth hrest
  | str s => exact readValue?_str s fuel depth rest
  | arr items =>
    cases h with
    | arr hitems =>
      rw [toList_arr, List.length_cons, List.length_append, List.length_singleton] at hfuel hdepth
      -- the brackets make the text of the array longer than that of its items, so one level of
      -- depth is left for them
      obtain ⟨depth, rfl⟩ : ∃ d, depth = d + 1 := ⟨depth - 1, by omega⟩
      rw [toList_arr, List.cons_append, List.append_assoc, List.singleton_append]
      cases items with
      | nil => exact readValue?_emptyArray fuel depth rest
      | cons item items =>
        obtain ⟨c, s, htext, hblank, hend⟩ := exists_cons_compactItems hitems
        have hread : readItems? fuel depth ((compactItems (item :: items)).toList ++ ']' :: rest)
            = some (item :: items, rest) :=
          readItems?_compactItems (item :: items) (List.cons_ne_nil _ _) hitems
            (by omega) (by omega)
        rw [htext, List.cons_append] at hread ⊢
        rw [readValue?_array hblank hend, hread]
        rfl
  | obj fields =>
    cases h with
    | obj hfields =>
      rw [toList_obj, List.length_cons, List.length_append, List.length_singleton] at hfuel hdepth
      obtain ⟨depth, rfl⟩ : ∃ d, depth = d + 1 := ⟨depth - 1, by omega⟩
      rw [toList_obj, List.cons_append, List.append_assoc, List.singleton_append]
      cases fields with
      | nil => exact readValue?_emptyObject fuel depth rest
      | cons field fields =>
        obtain ⟨s, htext⟩ := exists_cons_compactFields (field :: fields) (List.cons_ne_nil _ _)
        have hread : readFields? fuel depth
            ((compactFields (field :: fields)).toList ++ '\x7d' :: rest)
              = some (field :: fields, rest) :=
          readFields?_compactFields (field :: fields) (List.cons_ne_nil _ _) hfields (by omega)
            (by omega)
        rw [htext, List.cons_append] at hread ⊢
        rw [readValue?_object (by decide) (by decide), hread]
        rfl

/-- The text of some items is read as the items. -/
theorem readItems?_compactItems (items : List Json) : ∀ {fuel depth : Nat} {rest : List Char},
    items ≠ [] → (∀ item ∈ items, item.Representable) →
    (compactItems items).toList.length < fuel → (compactItems items).toList.length ≤ depth →
    readItems? fuel depth ((compactItems items).toList ++ ']' :: rest) = some (items, rest) := by
  intro fuel depth rest hne hitems hfuel hdepth
  cases items with
  | nil => exact absurd rfl hne
  | cons item items =>
    obtain ⟨hitem, hrest⟩ := List.forall_mem_cons.mp hitems
    have hpos := length_compact_pos hitem
    cases items with
    | nil =>
      have htext : (compactItems [item]).toList = item.compact.toList := rfl
      rw [htext] at hfuel hdepth ⊢
      -- each item takes one step of fuel, and its text has a character at least
      obtain ⟨fuel, rfl⟩ : ∃ f, fuel = f + 2 := ⟨fuel - 2, by omega⟩
      exact readItems?_end (readValue?_compact item hitem (by omega) hdepth
        (stops_cons (Or.inr (Or.inl rfl)) rest))
    | cons next items =>
      rw [toList_items, List.length_append, List.length_cons] at hfuel hdepth
      obtain ⟨fuel, rfl⟩ : ∃ f, fuel = f + 2 := ⟨fuel - 2, by omega⟩
      rw [toList_items, List.append_assoc, List.cons_append,
        readItems?_comma (readValue?_compact item hitem (by omega) (by omega)
          (stops_cons (Or.inl rfl) _)),
        readItems?_compactItems (next :: items) (List.cons_ne_nil _ _) hrest (by omega) (by omega)]
      rfl

/-- The text of some members is read as the members. -/
theorem readFields?_compactFields (fields : List (String × Json)) :
    ∀ {fuel depth : Nat} {rest : List Char}, fields ≠ [] →
    (∀ field ∈ fields, field.2.Representable) →
    (compactFields fields).toList.length < fuel → (compactFields fields).toList.length ≤ depth →
    readFields? fuel depth ((compactFields fields).toList ++ '\x7d' :: rest)
      = some (fields, rest) := by
  intro fuel depth rest hne hfields hfuel hdepth
  cases fields with
  | nil => exact absurd rfl hne
  | cons field fields =>
    obtain ⟨key, value⟩ := field
    obtain ⟨hvalue, hrest⟩ := List.forall_mem_cons.mp hfields
    cases fields with
    | nil =>
      rw [toList_field, List.length_append, List.length_cons] at hfuel hdepth
      obtain ⟨fuel, rfl⟩ : ∃ f, fuel = f + 2 := ⟨fuel - 2, by omega⟩
      rw [toList_field, List.append_assoc, List.cons_append]
      exact readFields?_end (readValue?_compact value hvalue (by omega) (by omega)
        (stops_cons (Or.inr (Or.inr rfl)) rest))
    | cons next fields =>
      rw [toList_fields, List.length_append, List.length_cons, List.length_append,
        List.length_cons] at hfuel hdepth
      obtain ⟨fuel, rfl⟩ : ∃ f, fuel = f + 2 := ⟨fuel - 2, by omega⟩
      rw [toList_fields, List.append_assoc, List.cons_append, List.append_assoc, List.cons_append,
        readFields?_comma (readValue?_compact value hvalue (by omega) (by omega)
          (stops_cons (Or.inl rfl) _)),
        readFields?_compactFields (next :: fields) (List.cons_ne_nil _ _) hrest (by omega)
          (by omega)]
      rfl

end

/-- The text of a value holds that value, and nothing else. -/
theorem readAll?_compact {v : Json} (h : v.Representable) :
    readAll? v.compact.toList.length v.compact.toList = some v := by
  have hread := readValue?_compact v h (Nat.le_succ _) (le_refl _) stops_nil
  rw [List.append_nil] at hread
  unfold readAll?
  rw [hread]
  rfl

end Values

end ObjectStore.Json
