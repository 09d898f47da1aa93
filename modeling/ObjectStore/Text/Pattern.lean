import ObjectStore.Text.Letter
import ObjectStore.Text.Split

/-!
# Search patterns

A client's pattern may hold literal regions, which run from the mark `\Q` to the mark `\E` or to the
end. The engine knows no such marks: in its form of a pattern every special character of a region is
escaped, and stray marks are dropped. Everything outside the regions is passed on as it is.
-/

namespace ObjectStore.Text.Pattern

/-- Whether a character stands for itself in every pattern. -/
def isPlain (c : Char) : Bool := c.isDigit || c = ' ' || isLetter c

/-- A character of a literal region in the engine's form. A single quote is not special there. -/
def escapeChar (c : Char) : List Char := if isPlain c || c = '\'' then [c] else ['\\', c]

/-- A literal region in the engine's form. -/
def escape (body : List Char) : List Char := body.flatMap escapeChar

/-- A mark: a backslash and a letter. -/
def mark (letter : Char) : List Char := ['\\', letter]

/-- Whether a text can be a literal region: it does not start with the closing mark and stays on one
line. -/
def isRegion (body : List Char) : Bool :=
  !(mark 'E').isPrefixOf body && !body.contains '\n'

/-- What comes before and after the first opening mark whose region runs to the end. -/
def openRegion? : List Char → Option (List Char × List Char)
  | [] => none
  | c :: rest =>
    match (afterStart? (mark 'Q') (c :: rest)).filter isRegion with
    | some body => some ([], body)
    | none => (openRegion? rest).map fun (before, body) => (c :: before, body)

theorem length_lt_of_openRegion? {s before body : List Char}
    (h : openRegion? s = some (before, body)) : before.length < s.length := by
  induction s generalizing before with
  | nil => simp [openRegion?] at h
  | cons c rest ih =>
    unfold openRegion? at h
    split at h
    · simp only [Option.some.injEq, Prod.mk.injEq] at h
      simp [← h.1]
    · simp only [Option.map_eq_some_iff, Prod.exists, Prod.mk.injEq] at h
      obtain ⟨inner, _, hi, rfl, rfl⟩ := h
      simpa using ih hi

/-- What comes before a literal region that ends a pattern, and the region itself; a pattern that
ends with the closing mark is tried without it first. -/
def lastRegion? (s : List Char) : Option (List Char × List Char) :=
  match (beforeEnd? (mark 'E') s).bind openRegion? with
  | some parts => some parts
  | none => openRegion? s

theorem length_afterStart?_le {start s rest : List Char} (h : afterStart? start s = some rest) :
    rest.length ≤ s.length := by
  induction start generalizing s with
  | nil => simp_all [afterStart?]
  | cons c start ih =>
    cases s with
    | nil => simp [afterStart?] at h
    | cons d s =>
      simp only [afterStart?] at h
      split at h
      · have := ih h
        simp
        omega
      · simp at h

theorem length_beforeEnd?_le {ending s before : List Char}
    (h : beforeEnd? ending s = some before) : before.length ≤ s.length := by
  simp only [beforeEnd?, Option.map_eq_some_iff] at h
  obtain ⟨reversed, hr, rfl⟩ := h
  simpa using length_afterStart?_le hr

theorem length_lt_of_lastRegion? {s before body : List Char}
    (h : lastRegion? s = some (before, body)) : before.length < s.length := by
  unfold lastRegion? at h
  split at h
  · next parts hp =>
    simp only [Option.some.injEq] at h
    subst h
    rw [Option.bind_eq_some_iff] at hp
    obtain ⟨shorter, hs, ho⟩ := hp
    exact Nat.lt_of_lt_of_le (length_lt_of_openRegion? ho) (length_beforeEnd?_le hs)
  · exact length_lt_of_openRegion? h

/-- Drops the first mark with a given letter that follows another character than a backslash. -/
def dropStrayMark (letter : Char) : List Char → List Char
  | [] => []
  | c :: rest =>
    match if c = '\\' then none else afterStart? (mark letter) rest with
    | some after => c :: after
    | none => c :: dropStrayMark letter rest

/-- Drops a mark at the start. -/
def dropLeadingMark (s : List Char) : List Char :=
  match afterStart? (mark 'E') s with
  | some rest => rest
  | none => (afterStart? (mark 'Q') s).getD s

/-- Drops stray marks: one closing mark and one opening mark inside the pattern, and one at its
start. -/
def dropStrayMarks (s : List Char) : List Char :=
  dropLeadingMark (dropStrayMark 'Q' (dropStrayMark 'E' s))

/-- A part of a pattern in the engine's form. -/
def engineChars (s : List Char) : List Char :=
  match h : lastRegion? s with
  | some (before, body) =>
    have := length_lt_of_lastRegion? h
    engineChars before ++ escape body
  | none => dropStrayMarks s
termination_by s.length

/-- A part of a pattern in the engine's form. -/
def enginePart (s : String) : String := String.ofList (engineChars s.toList)

/-- A pattern in the engine's form: an anchor at its start, or else one at its end, stays. -/
def engineForm (s : String) : String :=
  match dropStart? s "^" with
  | some rest => "^" ++ enginePart rest
  | none =>
    match dropEnd? s "$" with
    | some rest => enginePart rest ++ "$"
    | none => enginePart s

/-- Whether an anchored region that is closed on its own line occurs in a text. -/
def holdsAnchoredRegion : List Char → Bool
  | [] => false
  | c :: rest =>
    (afterStart? ('^' :: mark 'Q') (c :: rest)).any
        (fun body => occursIn (mark 'E') (body.takeWhile (· != '\n')))
      || holdsAnchoredRegion rest

/-- Whether a pattern asks for texts that start with a literal region. -/
def isAnchoredRegion (s : String) : Bool :=
  startsWith s "^" && holdsAnchoredRegion s.toList

/-! ## Patterns written with blanks and comments -/

/-- Where a reader of comments stands: at a place where no comment may start, after a character
that a comment may follow, or inside a comment. -/
inductive CommentState where
  | fresh
  | ready
  | inside

/-- The state after a character that is kept. -/
def CommentState.after (c : Char) : CommentState := if c = '\\' then .fresh else .ready

/-- Drops the comments that follow another character than a backslash, with the ends of their
lines. -/
def dropComments : CommentState → List Char → List Char
  | _, [] => []
  | .inside, c :: rest => dropComments (if c = '\n' then .fresh else .inside) rest
  | .ready, c :: rest =>
    if c = '#' then dropComments .inside rest else c :: dropComments (.after c) rest
  | .fresh, c :: rest => c :: dropComments (.after c) rest

/-- Drops a comment at the start, with the end of its line. -/
def dropLeadingComment (s : List Char) : List Char :=
  match s with
  | '#' :: rest => ((cutChars? '\n' rest).map Prod.snd).getD s
  | _ => s

/-- Drops the blanks that follow another character than a backslash. -/
def dropBlanks (ready : Bool) : List Char → List Char
  | [] => []
  | c :: rest =>
    if ready && isBlank c then dropBlanks true rest else c :: dropBlanks (c != '\\') rest

/-- A pattern without its unescaped blanks and its comments. -/
def condense (s : String) : String :=
  let lines := s.toList ++ (if s.toList.getLast? = some '\n' then [] else ['\n'])
  String.ofList (trimChars (dropBlanks false (dropLeadingComment (dropComments .fresh lines))))

end ObjectStore.Text.Pattern
