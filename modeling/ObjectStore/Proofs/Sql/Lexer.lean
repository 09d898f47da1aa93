import ObjectStore.Sql.Basic

/-!
# Reading the text of a statement

How the engine splits the text of a statement: `"` opens a name and `'` a literal, each of which
ends at a quote of its kind that is not written twice; a backslash is nothing special; `$` with
digits is a placeholder; every other character stands for itself.

The reader goes character by character. After the closing quote of a name it cannot know yet whether
the quote is half of a doubled one, and a number may go on, so a lexeme is put out only when the
next character shows that it is complete (`pending?`). Hence the text of a whole statement is read
mark by mark as long as no mark goes on with what the one before it left open, which is what
`lex_join` says.
-/

namespace ObjectStore.Sql

/-- What may stand in quotes. -/
inductive QuoteKind where
  | name
  | literal
  deriving Repr, DecidableEq

/-- The quote that opens and closes. -/
def QuoteKind.quote : QuoteKind → Char
  | .name => '"'
  | .literal => '\''

/-- A part of a statement as the engine reads it. -/
inductive Lexeme where
  | symbol (c : Char)
  | quoted (kind : QuoteKind) (s : List Char)
  | placeholder (number : Nat)
  deriving Repr, DecidableEq

/-- The number of a placeholder. -/
def Lexeme.placeholder? : Lexeme → Option Nat
  | .placeholder number => some number
  | .symbol _ | .quoted .. => none

/-- Where a reader stands: outside, in quotes, after a quote in quotes, after a dollar sign, or in a
number. -/
inductive LexState where
  | outside
  | inside (kind : QuoteKind) (seen : List Char)
  | atQuote (kind : QuoteKind) (seen : List Char)
  | dollar
  | number (n : Nat)
  deriving Repr, DecidableEq

namespace LexState

/-- Whether a character goes on with what is pending. -/
def goesOn : LexState → Char → Bool
  | .atQuote kind _, c => c = kind.quote
  | .dollar, c | .number _, c => c.isDigit
  | .outside, _ | .inside .., _ => false

/-- The lexemes that are complete if nothing goes on with them; none inside quotes. -/
def pending? : LexState → Option (List Lexeme)
  | .outside => some []
  | .inside .. => none
  | .atQuote kind seen => some [.quoted kind seen]
  | .dollar => some [.symbol '$']
  | .number n => some [.placeholder n]

/-- The state after a character outside of everything. -/
def start (c : Char) : LexState × List Lexeme :=
  if c = '"' then (.inside .name [], [])
  else if c = '\'' then (.inside .literal [], [])
  else if c = '$' then (.dollar, [])
  else (.outside, [.symbol c])

/-- The state after one more character, and what is complete by then. -/
def step : LexState → Char → LexState × List Lexeme
  | .inside kind seen, c =>
    if c = kind.quote then (.atQuote kind seen, []) else (.inside kind (seen ++ [c]), [])
  | .atQuote kind seen, c =>
    if c = kind.quote then (.inside kind (seen ++ [c]), [])
    else ((start c).1, .quoted kind seen :: (start c).2)
  | .dollar, c =>
    if c.isDigit then (.number (c.toNat - '0'.toNat), [])
    else ((start c).1, .symbol '$' :: (start c).2)
  | .number n, c =>
    if c.isDigit then (.number (10 * n + (c.toNat - '0'.toNat)), [])
    else ((start c).1, .placeholder n :: (start c).2)
  | .outside, c => start c

/-- The state after some more characters, and what is complete by then. -/
def scan (st : LexState) : List Char → LexState × List Lexeme
  | [] => (st, [])
  | c :: rest =>
    let next := st.step c
    let last := scan next.1 rest
    (last.1, next.2 ++ last.2)

/-- All lexemes from a state on; nothing if the text ends inside quotes. -/
def lexFrom (st : LexState) (text : List Char) : Option (List Lexeme) :=
  (st.scan text).1.pending?.map ((st.scan text).2 ++ ·)

/-! ## Reading piece by piece -/

variable {st : LexState} {a b text : List Char} {done : List Lexeme} {c : Char}

@[simp] theorem scan_nil : st.scan [] = (st, []) := rfl

theorem scan_cons (rest : List Char) : st.scan (c :: rest)
    = (((st.step c).1.scan rest).1, (st.step c).2 ++ ((st.step c).1.scan rest).2) := rfl

/-- One text after another is read from where the reading of the first one stopped. -/
theorem scan_append : st.scan (a ++ b)
    = (((st.scan a).1.scan b).1, (st.scan a).2 ++ ((st.scan a).1.scan b).2) := by
  induction a generalizing st with
  | nil => rfl
  | cons c rest ih => simp only [List.cons_append, scan_cons, ih, List.append_assoc]

/-- What the first of two texts completes comes before what the second one is read as. -/
theorem lexFrom_append :
    st.lexFrom (a ++ b) = ((st.scan a).1.lexFrom b).map ((st.scan a).2 ++ ·) := by
  simp only [lexFrom, scan_append, Option.map_map]
  congr 1
  funext rest
  simp

/-- A character that does not go on with what is pending completes it and starts anew. -/
theorem step_of_not_goesOn (hdone : st.pending? = some done) (hc : st.goesOn c = false) :
    st.step c = ((start c).1, done ++ (start c).2) := by
  cases st with
  | outside => exact Option.some.inj hdone ▸ rfl
  | inside kind seen => cases hdone
  | atQuote kind seen =>
    have hne : c ≠ kind.quote := of_decide_eq_false hc
    rw [step, if_neg hne, ← Option.some.inj hdone, List.singleton_append]
  | dollar =>
    have hne : ¬ c.isDigit = true := by simpa [goesOn] using hc
    rw [step, if_neg hne, ← Option.some.inj hdone, List.singleton_append]
  | number n =>
    have hne : ¬ c.isDigit = true := by simpa [goesOn] using hc
    rw [step, if_neg hne, ← Option.some.inj hdone, List.singleton_append]

/-- Whether what follows leaves what is pending as it is. -/
def Clear (st : LexState) (text : List Char) : Prop :=
  ∀ c, text.head? = some c → st.goesOn c = false

/-- What is pending is complete when the text goes on with something else. -/
theorem lexFrom_of_clear (hdone : st.pending? = some done) (h : st.Clear text) :
    st.lexFrom text = (LexState.outside.lexFrom text).map (done ++ ·) := by
  cases text with
  | nil =>
    rw [lexFrom, scan_nil, hdone]
    simp [lexFrom, pending?]
  | cons c rest =>
    have hstep := step_of_not_goesOn hdone (h c rfl)
    have houtside : outside.step c = start c := rfl
    simp only [lexFrom, scan_cons, hstep, houtside, Option.map_map, List.append_assoc]
    rfl

/-! ## Quoted texts and placeholders -/

/-- Inside quotes a text with its quotes written twice is taken as it is. -/
theorem scan_inside (kind : QuoteKind) (seen s : List Char) :
    (inside kind seen).scan (s.flatMap fun d => if d = kind.quote then [d, d] else [d])
      = (.inside kind (seen ++ s), []) := by
  induction s generalizing seen with
  | nil => simp
  | cons d rest ih =>
    rw [List.flatMap_cons, scan_append]
    -- a quote closes and its double opens again, with one quote taken
    have hd : (inside kind seen).scan (if d = kind.quote then [d, d] else [d])
        = (.inside kind (seen ++ [d]), []) := by
      split
      next h => simp [scan_cons, step, h]
      next h => simp [scan_cons, step, h]
    simp only [hd, ih, List.append_assoc, List.singleton_append, List.append_nil]

/-- A quoted text leaves the reader after its closing quote. -/
theorem scan_quoted (kind : QuoteKind) (s : String) :
    outside.scan (quoted kind.quote s).toList = (.atQuote kind s.toList, []) := by
  have hopen : outside.step kind.quote = (.inside kind [], []) := by cases kind <;> rfl
  have hclose : (inside kind s.toList).step kind.quote = (.atQuote kind s.toList, []) := by
    rw [step, if_pos rfl]
  simp only [quoted, Text.double, String.toList_append, String.toList_singleton,
    String.toList_ofList, List.singleton_append, scan_cons, scan_append, hopen,
    scan_inside, List.nil_append, hclose, scan_nil]

/-- A quoted name is read up to its closing quote, whatever quotes are in it. -/
theorem scan_quotedName (s : String) :
    outside.scan (quotedName s).toList = (.atQuote .name s.toList, []) :=
  scan_quoted .name s

/-- A quoted literal is read up to its closing quote, whatever quotes are in it. -/
theorem scan_quotedText (s : String) :
    outside.scan (quotedText s).toList = (.atQuote .literal s.toList, []) :=
  scan_quoted .literal s

/-- Digits go on with a number. -/
theorem scan_digits {digits : List Char} (h : ∀ c ∈ digits, c.isDigit = true) (n : Nat) :
    (number n).scan digits = (.number (Nat.ofDigitChars 10 digits n), []) := by
  induction digits generalizing n with
  | nil => rfl
  | cons c rest ih =>
    have hstep : (number n).step c = (.number (10 * n + (c.toNat - '0'.toNat)), []) := by
      rw [step, if_pos (h c List.mem_cons_self)]
    rw [scan_cons, hstep, ih fun d hd => h d (List.mem_cons_of_mem _ hd), Nat.ofDigitChars_cons]
    rfl

/-- A placeholder leaves the reader after its number. -/
theorem scan_placeholder (n : Nat) :
    outside.scan ("$" ++ toString n).toList = (.number n, []) := by
  have hdigits : ∀ c ∈ Nat.toDigits 10 n, c.isDigit = true :=
    fun c hc => Nat.isDigit_of_mem_toDigits (by decide) (by decide) hc
  have hvalue : Nat.ofDigitChars 10 (Nat.toDigits 10 n) 0 = n := Nat.ofDigitChars_ten_toDigits
  have htext : ("$" ++ toString n).toList = '$' :: Nat.toDigits 10 n := by
    simp [Nat.toString_eq_repr, Nat.toList_repr]
  rw [htext, scan_cons]
  -- the first digit leaves the dollar sign, the others go on with the number
  cases hd : Nat.toDigits 10 n with
  | nil => exact absurd hd Nat.toDigits_ne_nil
  | cons d rest =>
    rw [hd] at hdigits hvalue
    have hstart : outside.step '$' = (.dollar, []) := rfl
    have hstep : dollar.step d = (.number (d.toNat - '0'.toNat), []) := by
      rw [step, if_pos (hdigits d List.mem_cons_self)]
    rw [Nat.ofDigitChars_cons, Nat.mul_zero, Nat.zero_add] at hvalue
    rw [hstart, scan_cons, hstep, scan_digits fun c hc => hdigits c (List.mem_cons_of_mem _ hc),
      hvalue]
    rfl

end LexState

end ObjectStore.Sql
