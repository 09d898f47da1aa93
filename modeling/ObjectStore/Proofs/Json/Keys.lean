import ObjectStore.Json.Text
import ObjectStore.Proofs.Text.Split
import ObjectStore.Update.Operators

/-!
# The keys in JSON text

A key in JSON text is a string that a colon follows. So a reader finds the keys without reading the
values: it goes from quote to quote, takes a backslash with the character after it, and looks
whether a closing quote is followed by a colon. The keys that it finds in the compact text of a
value are those of the value at every depth, and what may not stand in a nested key is never part of
an escape. So the text shows whether all of them may stand there (`textHasNestedKeys_compact`).
-/

namespace ObjectStore

/-! ## Numbers have no quotes -/

namespace Decimal

/-- Digits are no quotes. -/
theorem quote_notMem_toDigits (n : Nat) : '"' ∉ Nat.toDigits 10 n := by
  intro h
  have hdigit : '"'.isDigit = true := Nat.isDigit_of_mem_toDigits (by decide) (by decide) h
  exact absurd hdigit (by decide)

/-- A number that is written without an exponent has no quotes, wherever its point is. -/
theorem quote_notMem_positionalText {digits : List Char} (h : '"' ∉ digits) (point : Int)
    (wholePoint : Bool) : '"' ∉ positionalText digits point wholePoint := by
  have hzeroes : ∀ n, '"' ∉ List.replicate n '0' := by simp
  unfold positionalText
  split
  · exact List.not_mem_cons_of_ne_of_not_mem (by decide)
      (List.not_mem_cons_of_ne_of_not_mem (by decide)
        (List.not_mem_append (hzeroes _) h))
  · dsimp only
    split
    · refine List.not_mem_append (List.not_mem_append h (hzeroes _)) ?_
      cases wholePoint <;> decide
    · exact List.not_mem_append (fun hmem => h (List.mem_of_mem_take hmem))
        (List.not_mem_cons_of_ne_of_not_mem (by decide) fun hmem => h (List.mem_of_mem_drop hmem))

/-- A number that is written with an exponent has no quotes. -/
theorem quote_notMem_exponentText {digits : List Char} (h : '"' ∉ digits) (exponent : Int) :
    '"' ∉ exponentText digits exponent := by
  have hhead : '"' ∉ digits.take 1 := fun hmem => h (List.mem_of_mem_take hmem)
  have htail : '"' ∉ digits.drop 1 := fun hmem => h (List.mem_of_mem_drop hmem)
  have hfraction : '"' ∉ if (digits.drop 1).isEmpty then [] else '.' :: digits.drop 1 := by
    split
    · exact List.not_mem_nil
    · exact List.not_mem_cons_of_ne_of_not_mem (by decide) htail
  have hsign : '"' ≠ if exponent < 0 then '-' else '+' := by
    split
    · decide
    · decide
  exact List.not_mem_append (List.not_mem_append hhead hfraction)
    (List.not_mem_cons_of_ne_of_not_mem (by decide)
      (List.not_mem_cons_of_ne_of_not_mem hsign (quote_notMem_toDigits _)))

/-- The size of a number is written without quotes in every layout. -/
theorem quote_notMem_magnitudeText (layout : Layout) (d : Magnitude) :
    '"' ∉ layout.magnitudeText d := by
  unfold Layout.magnitudeText
  dsimp only
  split
  · split <;> decide
  · split
    · exact quote_notMem_positionalText (quote_notMem_toDigits _) _ _
    · exact quote_notMem_exponentText (quote_notMem_toDigits _) _

/-- A floating-point number is written without quotes, also one that is not finite. -/
theorem quote_notMem_write (layout : Layout) (x : Float) : '"' ∉ (layout.write x).toList := by
  unfold Layout.write
  split
  · decide
  · split
    · split <;> decide
    · have hmagnitude := quote_notMem_magnitudeText layout (shortest layout.tie x)
      dsimp only
      rw [String.toList_ofList]
      split
      · exact List.not_mem_cons_of_ne_of_not_mem (by decide) hmagnitude
      · exact hmagnitude

end Decimal

/-- An integer is written without quotes. -/
theorem quote_notMem_repr (n : Int) : '"' ∉ (toString n).toList := by
  have hnat : ∀ n : Nat, '"' ∉ n.repr.toList := by
    intro n
    rw [Nat.repr, String.toList_ofList]
    exact Decimal.quote_notMem_toDigits n
  cases n with
  | ofNat n => exact hnat n
  | negSucc n =>
    change '"' ∉ ("-" ++ (n + 1).repr).toList
    rw [String.toList_append]
    exact List.not_mem_append (by decide) (hnat _)

namespace Json

open Update

/-! ## Reading -/

/-- Where a reader of JSON text stands: outside of strings, in a string, behind a backslash in a
string, or behind a string; with what was written in the string. -/
inductive KeyPlace where
  | outside
  | inside (written : List Char)
  | escaped (written : List Char)
  | behind (written : List Char)

namespace KeyPlace

/-- The place after one more character. -/
def step : KeyPlace → Char → KeyPlace
  | .outside, c | .behind _, c => if c = '"' then .inside [] else .outside
  | .inside written, c =>
    if c = '"' then .behind written
    else if c = '\\' then .escaped written
    else .inside (written ++ [c])
  | .escaped written, c => .inside (written ++ ['\\', c])

/-- Whether the next character leaves what was written as it is, or makes a key of it that may stand
below the top level. -/
def allows : KeyPlace → Char → Bool
  | .behind written, c => c != ':' || isNestedKey (String.ofList written)
  | _, _ => true

/-- The place after some more characters, and whether all keys in them may stand below the top
level. -/
def scan (place : KeyPlace) : List Char → KeyPlace × Bool
  | [] => (place, true)
  | c :: rest =>
    let last := scan (place.step c) rest
    (last.1, place.allows c && last.2)

/-- A reader is not in the middle of a string. -/
def IsSettled : KeyPlace → Prop
  | .outside | .behind _ => True
  | .inside _ | .escaped _ => False

theorem isSettled_outside : KeyPlace.outside.IsSettled := trivial

theorem isSettled_behind (written : List Char) : (KeyPlace.behind written).IsSettled := trivial

variable {place : KeyPlace} {a b text written : List Char} {c : Char}

theorem scan_cons (rest : List Char) : place.scan (c :: rest)
    = (((place.step c).scan rest).1, place.allows c && ((place.step c).scan rest).2) := rfl

/-- One text after another is read from where the reading of the first one stopped. -/
theorem scan_append : place.scan (a ++ b)
    = (((place.scan a).1.scan b).1, (place.scan a).2 && ((place.scan a).1.scan b).2) := by
  induction a generalizing place with
  | nil => rfl
  | cons c rest ih => simp only [List.cons_append, scan_cons, ih, Bool.and_assoc]

/-- Behind a value, what is no string and no colon leads outside. -/
theorem scan_settled (h : place.IsSettled) (hquote : c ≠ '"') (hcolon : c ≠ ':')
    (rest : List Char) : place.scan (c :: rest) = KeyPlace.outside.scan rest := by
  have hallows : place.allows c = true := by
    cases place with
    | behind written => simp [allows, hcolon]
    | outside | inside | escaped => rfl
  have hstep : place.step c = .outside := by
    cases place with
    | outside | behind => simp [step, hquote]
    | inside | escaped => exact h.elim
  rw [scan_cons, hallows, hstep, Bool.true_and]

/-- Text without quotes has no keys. -/
theorem scan_outside (h : '"' ∉ text) : KeyPlace.outside.scan text = (.outside, true) := by
  induction text with
  | nil => rfl
  | cons c rest ih =>
    rw [List.mem_cons, not_or] at h
    rw [scan_cons, step, if_neg (Ne.symm h.1), ih h.2]
    rfl

/-- In a string, a character without a meaning of its own is written to it. -/
theorem scan_inside (hquote : c ≠ '"') (hback : c ≠ '\\') (rest : List Char) :
    (KeyPlace.inside written).scan (c :: rest) = (KeyPlace.inside (written ++ [c])).scan rest := by
  rw [scan_cons, step, if_neg hquote, if_neg hback]
  rfl

/-- Hexadecimal digits are no quotes and no backslashes. -/
theorem hexDigit_ne : ∀ n < 16, hexDigit n ≠ '"' ∧ hexDigit n ≠ '\\' := by decide

/-- In a string, an escaped character is written to it. -/
theorem scan_escapeChar (c : Char) (rest : List Char) :
    (KeyPlace.inside written).scan (escapeChar c ++ rest)
      = (KeyPlace.inside (written ++ escapeChar c)).scan rest := by
  unfold escapeChar
  split
  case h_8 _ hquote hback _ _ _ _ _ =>
    split
    next =>
      obtain ⟨hhigh, hhigh'⟩ := hexDigit_ne (c.toNat / 16) (by omega)
      obtain ⟨hlow, hlow'⟩ := hexDigit_ne (c.toNat % 16) (by omega)
      -- a control character is written in six characters, of which only the second is escaped
      have hu : (KeyPlace.inside written).scan ('\\' :: 'u' :: '0' :: '0' :: hexDigit (c.toNat / 16)
          :: hexDigit (c.toNat % 16) :: rest)
          = (KeyPlace.inside (written ++ ['\\', 'u'])).scan ('0' :: '0' :: hexDigit (c.toNat / 16)
          :: hexDigit (c.toNat % 16) :: rest) := rfl
      simp only [List.cons_append, List.nil_append]
      rw [hu, scan_inside (by decide) (by decide), scan_inside (by decide) (by decide),
        scan_inside hhigh hhigh', scan_inside hlow hlow']
      simp
    next => exact scan_inside hquote hback rest
  all_goals rfl

/-- In a string, all that is escaped is written to it. -/
theorem scan_escaped (s rest : List Char) :
    (KeyPlace.inside written).scan (s.flatMap escapeChar ++ rest)
      = (KeyPlace.inside (written ++ s.flatMap escapeChar)).scan rest := by
  induction s generalizing written with
  | nil => simp
  | cons c s ih => simp only [List.flatMap_cons, List.append_assoc, scan_escapeChar, ih]

/-- A reader comes out behind a quoted string. -/
theorem scan_quote (s : String) (rest : List Char) :
    KeyPlace.outside.scan ((quote s).toList ++ rest)
      = (KeyPlace.behind (s.toList.flatMap escapeChar)).scan rest := by
  have hopen : KeyPlace.outside.step '"' = .inside [] := rfl
  have hclose (written : List Char) : (KeyPlace.inside written).step '"' = .behind written := rfl
  rw [quote, String.toList_ofList, List.cons_append, List.append_assoc, scan_cons, hopen,
    scan_escaped, List.nil_append, List.singleton_append, scan_cons, hclose]
  rfl

end KeyPlace

/-- A character that is never escaped is in an escape only if it is what is escaped. -/
theorem mem_escapeChar {c d : Char} (h : d = '$' ∨ d = '.') : d ∈ escapeChar c ↔ d = c := by
  unfold escapeChar
  split
  case h_8 =>
    split
    next hlow =>
      -- what is written for a control character are a backslash, a letter and digits
      have hdigit : ∀ n < 16, d ≠ hexDigit n := by
        rcases h with rfl | rfl <;> decide
      have hne : d ≠ c := by
        rintro rfl
        rcases h with rfl | rfl <;> exact absurd hlow (by decide)
      have hhigh := hdigit (c.toNat / 16) (by omega)
      have hlow := hdigit (c.toNat % 16) (by omega)
      have hfixed : d ∉ ['\\', 'u', '0', '0'] := by
        rcases h with rfl | rfl <;> decide
      simp_all
    next => simp
  all_goals rcases h with rfl | rfl <;> decide

/-- Escaping a key does not change whether it may stand below the top level. -/
theorem isNestedKey_escaped (key : String) :
    isNestedKey (String.ofList (key.toList.flatMap escapeChar)) = isNestedKey key := by
  have hmem {d : Char} (h : d = '$' ∨ d = '.') :
      d ∈ key.toList.flatMap escapeChar ↔ d ∈ key.toList := by
    simp [List.mem_flatMap, mem_escapeChar h]
  have hcontains {d : Char} (h : d = '$' ∨ d = '.') :
      Text.occursIn [d] (key.toList.flatMap escapeChar) = Text.occursIn [d] key.toList := by
    rw [Bool.eq_iff_iff, Text.occursIn_singleton, Text.occursIn_singleton, hmem h]
  unfold isNestedKey Text.contains
  change (!Text.occursIn ['$'] _ && !Text.occursIn ['.'] _)
    = (!Text.occursIn ['$'] _ && !Text.occursIn ['.'] _)
  rw [String.toList_ofList, hcontains (Or.inl rfl), hcontains (Or.inr rfl)]

/-! ## Reading what is written for a value -/

open KeyPlace

/-- A text is read from outside to the end of a value, and its keys are judged like this. -/
def ReadsKeys (text : String) (legal : Bool) : Prop :=
  ∃ place : KeyPlace, place.IsSettled ∧ KeyPlace.outside.scan text.toList = (place, legal)

/-- Text without quotes has no keys to judge. -/
theorem readsKeys_plain {text : String} (h : '"' ∉ text.toList) : ReadsKeys text true :=
  ⟨_, isSettled_outside, scan_outside h⟩

/-- A string on its own is no key, so what is in it does not matter. -/
theorem readsKeys_quote (s : String) : ReadsKeys (quote s) true := by
  have hscan := scan_quote s []
  rw [List.append_nil] at hscan
  exact ⟨_, isSettled_behind _, hscan⟩

/-- Text in brackets is read as it is without them. -/
theorem ReadsKeys.enclosed {text opening closing : String} {legal : Bool} {o c : Char}
    (h : ReadsKeys text legal) (hopening : opening.toList = [o]) (hclosing : closing.toList = [c])
    (ho : o ≠ '"' ∧ o ≠ ':') (hc : c ≠ '"' ∧ c ≠ ':') :
    ReadsKeys (opening ++ text ++ closing) legal := by
  obtain ⟨place, hsettled, hscan⟩ := h
  refine ⟨_, isSettled_outside, ?_⟩
  rw [String.toList_append, String.toList_append, hopening, hclosing, List.singleton_append,
    List.cons_append, scan_settled isSettled_outside ho.1 ho.2, scan_append, hscan,
    scan_settled hsettled hc.1 hc.2, scan, Bool.and_true]

/-- One text after another, with a comma between them. -/
theorem ReadsKeys.comma {first rest : String} {legal legal' : Bool} (h : ReadsKeys first legal)
    (h' : ReadsKeys rest legal') : ReadsKeys (first ++ "," ++ rest) (legal && legal') := by
  obtain ⟨place, hsettled, hscan⟩ := h
  obtain ⟨place', hsettled', hscan'⟩ := h'
  have hcomma : (",".toList) = [','] := rfl
  refine ⟨place', hsettled', ?_⟩
  rw [String.toList_append, String.toList_append, hcomma, List.append_assoc, scan_append, hscan,
    List.singleton_append, scan_settled hsettled (by decide) (by decide), hscan']

/-- A value after its key. -/
theorem ReadsKeys.member {text : String} {legal : Bool} (key : String) (h : ReadsKeys text legal) :
    ReadsKeys (quote key ++ ":" ++ text) (isNestedKey key && legal) := by
  obtain ⟨place, hsettled, hscan⟩ := h
  have hcolon : (":".toList) = [':'] := rfl
  have hstep (written : List Char) : (KeyPlace.behind written).step ':' = .outside := rfl
  -- the colon makes a key of what was read
  have hallows : (KeyPlace.behind (key.toList.flatMap escapeChar)).allows ':' = isNestedKey key :=
    isNestedKey_escaped key
  refine ⟨place, hsettled, ?_⟩
  rw [String.toList_append, String.toList_append, hcolon, List.append_assoc, scan_quote,
    List.singleton_append, scan_cons, hstep, hallows, hscan]

mutual

/-- What is written for a value is read with the keys of the value. -/
theorem readsKeys_compact : ∀ value : Json, ReadsKeys value.compact (hasNestedKeys value)
  | .null | .bool true | .bool false => readsKeys_plain (by decide)
  | .int n => readsKeys_plain (quote_notMem_repr n)
  | .double x => by
    rw [compact]
    split
    · exact readsKeys_plain (Decimal.quote_notMem_write _ x)
    · exact readsKeys_plain (by decide)
  | .str s => readsKeys_quote s
  | .arr items => (readsKeys_compactItems items).enclosed rfl rfl (by decide) (by decide)
  | .obj fields => (readsKeys_compactFields fields).enclosed rfl rfl (by decide) (by decide)

/-- What is written for items is read with the keys of all of them. -/
theorem readsKeys_compactItems :
    ∀ items : List Json, ReadsKeys (compactItems items) (itemsHaveNestedKeys items)
  | [] => readsKeys_plain (by decide)
  | [item] => by
    rw [compactItems, itemsHaveNestedKeys, itemsHaveNestedKeys, Bool.and_true]
    exact readsKeys_compact item
  | item :: next :: rest => by
    rw [compactItems, itemsHaveNestedKeys]
    exact (readsKeys_compact item).comma (readsKeys_compactItems (next :: rest))

/-- What is written for members is read with their own keys and those of their values. -/
theorem readsKeys_compactFields :
    ∀ fields : List (String × Json), ReadsKeys (compactFields fields) (membersHaveNestedKeys fields)
  | [] => readsKeys_plain (by decide)
  | [(key, value)] => by
    rw [compactFields, membersHaveNestedKeys, membersHaveNestedKeys, Bool.and_true]
    exact (readsKeys_compact value).member key
  | (key, value) :: next :: rest => by
    rw [compactFields, membersHaveNestedKeys]
    exact ((readsKeys_compact value).member key).comma (readsKeys_compactFields (next :: rest))

end

/-- Whether all keys in JSON text may stand below the top level of an object. -/
def textHasNestedKeys (text : String) : Bool := (KeyPlace.outside.scan text.toList).2

/-- The text of a value shows whether all its keys may stand below the top level of an object. -/
@[simp] theorem textHasNestedKeys_compact (value : Json) :
    textHasNestedKeys value.compact = hasNestedKeys value := by
  obtain ⟨place, _, hscan⟩ := readsKeys_compact value
  rw [textHasNestedKeys, hscan]

end Json

end ObjectStore
