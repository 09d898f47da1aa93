import Mathlib.Data.List.DropRight
import ObjectStore.Proofs.Text.Split
import ObjectStore.Text.Pattern

/-!
# Patterns without blanks and comments

What is meant by a pattern written with blanks and comments is told by one reader who goes through
it from left to right (`scan`): a backslash is kept together with the character after it, and
outside of comments everything is kept that is no blank. `condense` goes through the pattern several
times, and takes for escaped whatever has a backslash before it. So the two part where a backslash
is escaped itself, and where one comment meets the next.

`condense_eq_scan_iff` says exactly where they agree: no comment follows directly on a comment or on
an escaped backslash, no blank follows on an escaped backslash unless nothing is kept after it, and
what is kept does not end in an escaped blank.
-/

namespace ObjectStore.Text.Pattern

/-! ## One reader -/

/-- Where a reader of a pattern stands. -/
inductive Place where
  | outside
  | escaped
  | comment

/-- What a reader keeps of a pattern from some place on. A comment goes with the end of its line. -/
def scanFrom : Place → List Char → List Char
  | _, [] => []
  | .escaped, c :: rest => c :: scanFrom .outside rest
  | .comment, c :: rest => scanFrom (if c = '\n' then .outside else .comment) rest
  | .outside, c :: rest =>
    if c = '\\' then c :: scanFrom .escaped rest
    else if c = '#' then scanFrom .comment rest
    else if isBlank c then scanFrom .outside rest
    else c :: scanFrom .outside rest

/-- What a reader keeps of a pattern. -/
def scan (s : String) : String := String.ofList (scanFrom .outside s.toList)

/-- What a reader outside of comments has just passed. -/
inductive Passed where
  | comment
  | escapedBackslash
  | other
  deriving DecidableEq

/-- Where a reader stands who remembers what was passed. -/
inductive Stand where
  | outside (passed : Passed)
  | escaped
  | comment

namespace Stand

/-- The place without the memory. -/
def place : Stand → Place
  | outside _ => .outside
  | escaped => .escaped
  | comment => .comment

/-- What is known about comments to whoever only sees the character before. -/
def commentState : Stand → CommentState
  | outside .other => .ready
  | outside _ | escaped => .fresh
  | comment => .inside

/-- Whether whoever only sees the character before takes a blank for unescaped. -/
def dropsBlanks : Stand → Bool
  | outside .escapedBackslash | escaped => false
  | _ => true

end Stand

/-- Whether comments and blanks follow only on what they may follow on, from some place on. -/
def isRegularFrom : Stand → List Char → Bool
  | _, [] => true
  | .escaped, c :: rest =>
    isRegularFrom (.outside (if c = '\\' then .escapedBackslash else .other)) rest
  | .comment, c :: rest => isRegularFrom (if c = '\n' then .outside .comment else .comment) rest
  | .outside passed, c :: rest =>
    if c = '\\' then isRegularFrom .escaped rest
    else if c = '#' then passed = .other && isRegularFrom .comment rest
    else if isBlank c then
      (passed ≠ .escapedBackslash || (scanFrom .outside rest).isEmpty)
        && isRegularFrom (.outside .other) rest
    else isRegularFrom (.outside .other) rest

/-- A pattern without the comment that it begins with. -/
def afterFirstComment : List Char → List Char
  | '#' :: rest => (rest.dropWhile (· ≠ '\n')).drop 1
  | s => s

/-- Whether comments and blanks follow only on what they may follow on; a comment may begin the
pattern. -/
def isRegular (s : String) : Bool := isRegularFrom (.outside .other) (afterFirstComment s.toList)

variable {c : Char} {s rest : List Char} {stand : Stand} {state : CommentState} {ready : Bool}

/-! ## What the reader keeps -/

/-- Inside a comment the reader goes on after the end of the line. -/
theorem scanFrom_comment (s : List Char) :
    scanFrom .comment s = scanFrom .outside ((s.dropWhile (· ≠ '\n')).drop 1) := by
  induction s with
  | nil => rfl
  | cons c rest ih =>
    rw [scanFrom]
    by_cases hc : c = '\n'
    · simp [hc]
    · simp [hc, ih]

/-- A comment that begins a pattern is passed over. -/
theorem scanFrom_afterFirstComment (s : List Char) :
    scanFrom .outside (afterFirstComment s) = scanFrom .outside s := by
  unfold afterFirstComment
  split
  · rw [← scanFrom_comment]
    rfl
  · rfl

/-- Unless a backslash was passed, what is kept begins with neither a blank nor a comment. -/
theorem starts_of_scanFrom {place : Place} (hplace : place ≠ .escaped)
    (h : scanFrom place s = c :: rest) : c ≠ '#' ∧ isBlank c = false := by
  induction s generalizing place with
  | nil => simp [scanFrom] at h
  | cons d s ih =>
    cases place with
    | escaped => exact absurd rfl hplace
    | comment =>
      rw [scanFrom] at h
      exact ih (by split <;> simp) h
    | outside =>
      rw [scanFrom] at h
      split_ifs at h with hbackslash hcomment hblank
      · cases h
        subst hbackslash
        decide
      · exact ih (by simp) h
      · exact ih (by simp) h
      · cases h
        exact ⟨hcomment, by simpa using hblank⟩

/-! ## What is left of a pattern -/

/-- What is left of a pattern without comments and blanks from some place on. -/
def cleaned (stand : Stand) (s : List Char) : List Char :=
  dropBlanks stand.dropsBlanks (dropComments stand.commentState s)

@[simp] theorem cleaned_nil : cleaned stand [] = [] := by
  cases stand <;> rfl

/-- Inside a comment nothing is left, up to the end of the line, which goes too. -/
theorem cleaned_comment : cleaned .comment (c :: rest)
    = cleaned (if c = '\n' then .outside .comment else .comment) rest := by
  by_cases hc : c = '\n' <;> simp [cleaned, Stand.commentState, Stand.dropsBlanks, dropComments, hc]

/-- What follows on a backslash is left, and a backslash there is remembered as an escaped one. -/
theorem cleaned_escaped : cleaned .escaped (c :: rest)
    = c :: cleaned (.outside (if c = '\\' then .escapedBackslash else .other)) rest := by
  by_cases hc : c = '\\' <;>
    simp [cleaned, Stand.commentState, Stand.dropsBlanks, dropComments, dropBlanks,
      CommentState.after, hc, bne, beq_false_of_ne]

section Outside

variable {passed : Passed}

/-- A backslash is left, and escapes what follows. -/
theorem cleaned_backslash :
    cleaned (.outside passed) ('\\' :: rest) = '\\' :: cleaned .escaped rest := by
  cases passed <;> rfl

/-- A hash begins a comment, unless a comment or an escaped backslash was just passed: then it is
left. -/
theorem cleaned_hash : cleaned (.outside passed) ('#' :: rest)
    = if passed = .other then cleaned .comment rest else '#' :: cleaned (.outside .other) rest := by
  cases passed <;> rfl

/-- A blank goes, unless it looks like an escaped one. -/
theorem cleaned_blank (hc : isBlank c = true) : cleaned (.outside passed) (c :: rest)
    = if passed = .escapedBackslash then c :: cleaned (.outside .other) rest
      else cleaned (.outside .other) rest := by
  have hbackslash : c ≠ '\\' := by
    rintro rfl
    exact absurd hc (by decide)
  have hcomment : c ≠ '#' := by
    rintro rfl
    exact absurd hc (by decide)
  cases passed <;>
    simp [cleaned, Stand.commentState, Stand.dropsBlanks, dropComments, dropBlanks,
      CommentState.after, bne, beq_false_of_ne, hbackslash, hcomment, hc]

/-- Any other character is left. -/
theorem cleaned_other (hbackslash : c ≠ '\\') (hcomment : c ≠ '#') (hc : isBlank c = false) :
    cleaned (.outside passed) (c :: rest) = c :: cleaned (.outside .other) rest := by
  cases passed <;>
    simp [cleaned, Stand.commentState, Stand.dropsBlanks, dropComments, dropBlanks,
      CommentState.after, bne, beq_false_of_ne, hbackslash, hcomment, hc]

end Outside

/-- In a regular pattern at most blanks at the end are left beside what a reader keeps. -/
theorem cleaned_of_isRegularFrom (h : isRegularFrom stand s = true) :
    ∃ blanks, (∀ c ∈ blanks, isBlank c = true)
      ∧ cleaned stand s = scanFrom stand.place s ++ blanks := by
  induction s generalizing stand with
  | nil => exact ⟨[], by simp, by simp [scanFrom]⟩
  | cons c rest ih =>
    cases stand with
    | escaped =>
      obtain ⟨blanks, hblanks, hrest⟩ := ih h
      exact ⟨blanks, hblanks, by rw [cleaned_escaped, hrest]; rfl⟩
    | comment =>
      obtain ⟨blanks, hblanks, hrest⟩ := ih h
      refine ⟨blanks, hblanks, ?_⟩
      rw [cleaned_comment, hrest]
      by_cases hc : c = '\n' <;> simp [Stand.place, scanFrom, hc]
    | outside passed =>
      rw [isRegularFrom] at h
      simp only [Stand.place, scanFrom]
      split_ifs at h ⊢ with hbackslash hcomment hblank
      · obtain ⟨blanks, hblanks, hrest⟩ := ih h
        exact ⟨blanks, hblanks, by rw [hbackslash, cleaned_backslash, hrest]; rfl⟩
      · rw [Bool.and_eq_true, decide_eq_true_eq] at h
        obtain ⟨blanks, hblanks, hrest⟩ := ih h.2
        exact ⟨blanks, hblanks, by rw [hcomment, cleaned_hash, if_pos h.1, hrest]; rfl⟩
      · rw [Bool.and_eq_true, Bool.or_eq_true, decide_eq_true_eq, List.isEmpty_iff] at h
        obtain ⟨blanks, hblanks, hrest⟩ := ih h.2
        rw [cleaned_blank hblank, hrest]
        split_ifs with hpassed
        · have hnone : scanFrom .outside rest = [] := h.1.resolve_left (not_not_intro hpassed)
          exact ⟨c :: blanks, by simpa using ⟨hblank, hblanks⟩, by simp [Stand.place, hnone]⟩
        · exact ⟨blanks, hblanks, rfl⟩
      · obtain ⟨blanks, hblanks, hrest⟩ := ih h
        exact ⟨blanks, hblanks,
          by rw [cleaned_other hbackslash hcomment (by simpa using hblank), hrest]; rfl⟩

/-- A character at the start goes with those at the end only if all goes that follows it. -/
theorem rdropWhile_cons (p : Char → Bool) (c : Char) (s : List Char) :
    (c :: s).rdropWhile p
      = if s.rdropWhile p = [] ∧ p c = true then [] else c :: s.rdropWhile p := by
  induction s using List.reverseRecOn with
  | nil => by_cases hc : p c = true <;> simp [List.rdropWhile, List.dropWhile, hc]
  | append_singleton s d ih =>
    rw [← List.cons_append, List.rdropWhile_concat, List.rdropWhile_concat]
    split
    · exact ih
    · simp

/-- In any other pattern something is left, or missing, for which no blanks at the end account. -/
theorem cleaned_of_not_isRegularFrom (h : isRegularFrom stand s = false) :
    (cleaned stand s).rdropWhile isBlank ≠ scanFrom stand.place s := by
  induction s generalizing stand with
  | nil => simp [isRegularFrom] at h
  | cons c rest ih =>
    -- A character kept by both is followed by the same difference.
    have hkept {next : Stand} (hnext : isRegularFrom next rest = false) :
        (c :: cleaned next rest).rdropWhile isBlank ≠ c :: scanFrom next.place rest := by
      rw [rdropWhile_cons]
      split_ifs
      · simp
      · simpa using ih hnext
    cases stand with
    | escaped =>
      rw [cleaned_escaped]
      exact hkept h
    | comment =>
      have hrest := ih h
      rw [cleaned_comment]
      by_cases hc : c = '\n' <;> simpa [Stand.place, scanFrom, hc] using hrest
    | outside passed =>
      rw [isRegularFrom] at h
      simp only [Stand.place, scanFrom]
      split_ifs at h ⊢ with hbackslash hcomment hblank
      · subst hbackslash
        rw [cleaned_backslash]
        exact hkept h
      · subst hcomment
        rw [cleaned_hash]
        split_ifs with hpassed
        · exact ih (by simpa [hpassed] using h)
        · rw [rdropWhile_cons, if_neg fun hdropped => absurd hdropped.2 (by decide)]
          intro heq
          exact (starts_of_scanFrom (by simp) heq.symm).1 rfl
      · rw [cleaned_blank hblank]
        split_ifs with hpassed
        · rw [rdropWhile_cons]
          split_ifs with hdropped
          · intro hnone
            have hrest : isRegularFrom (.outside .other) rest = false := by
              simpa [← hnone] using h
            exact ih hrest (hdropped.1.trans hnone)
          · intro heq
            exact absurd (starts_of_scanFrom (by simp) heq.symm).2 (by simp [hblank])
        · exact ih (by simpa [hpassed] using h)
      · rw [cleaned_other hbackslash hcomment (by simpa using hblank)]
        exact hkept h

/-! ## The whole pattern -/

/-- Without blanks, no blank is at the start. -/
theorem dropWhile_dropBlanks_true (s : List Char) :
    (dropBlanks true s).dropWhile isBlank = dropBlanks true s := by
  induction s with
  | nil => rfl
  | cons c rest ih =>
    rw [dropBlanks, Bool.true_and]
    split_ifs with hc
    · exact ih
    · exact List.dropWhile_cons_of_neg hc

/-- Trimming takes the blank at the start that nothing precedes. -/
theorem trimChars_dropBlanks (s : List Char) :
    trimChars (dropBlanks false s) = (dropBlanks true s).rdropWhile isBlank := by
  suffices hstart : (dropBlanks false s).dropWhile isBlank = dropBlanks true s by
    rw [trimChars, hstart, List.rdropWhile]
  cases s with
  | nil => rfl
  | cons c rest =>
    rw [dropBlanks, dropBlanks, Bool.false_and, if_neg Bool.false_ne_true, Bool.true_and]
    split_ifs with hc
    · have hbackslash : c ≠ '\\' := by
        rintro rfl
        exact absurd hc (by decide)
      rw [List.dropWhile_cons_of_pos hc, bne_iff_ne.mpr hbackslash, dropWhile_dropBlanks_true]
    · exact List.dropWhile_cons_of_neg hc

/-- An end of line behind a pattern is left behind what is left, or goes with the comment that it
ends. -/
theorem dropComments_append_newline (state : CommentState) (s : List Char) :
    dropComments state (s ++ ['\n']) = dropComments state s ++ ['\n']
      ∨ dropComments state (s ++ ['\n']) = dropComments state s := by
  induction s generalizing state with
  | nil => cases state <;> simp [dropComments]
  | cons c rest ih =>
    cases state with
    | fresh => simpa [dropComments] using ih (.after c)
    | ready =>
      simp only [List.cons_append, dropComments]
      split_ifs
      · exact ih .inside
      · simpa using ih (.after c)
    | inside => exact ih _

/-- An end of line behind a pattern goes as a blank, unless a backslash is before it. -/
theorem dropBlanks_append_newline (ready : Bool) (s : List Char) :
    dropBlanks ready (s ++ ['\n']) = dropBlanks ready s ++ ['\n']
      ∨ dropBlanks ready (s ++ ['\n']) = dropBlanks ready s := by
  induction s generalizing ready with
  | nil => cases ready <;> simp [dropBlanks, isBlank]
  | cons c rest ih =>
    simp only [List.cons_append, dropBlanks]
    split_ifs
    · exact ih true
    · simpa using ih (c != '\\')

/-- The end of the last line is no part of what is left. -/
theorem rdropWhile_cleaned_append_newline (stand : Stand) (s : List Char) :
    (cleaned stand (s ++ ['\n'])).rdropWhile isBlank = (cleaned stand s).rdropWhile isBlank := by
  unfold cleaned
  obtain hline | hline := dropComments_append_newline stand.commentState s
  · rw [hline]
    obtain hend | hend :=
      dropBlanks_append_newline stand.dropsBlanks (dropComments stand.commentState s)
    · rw [hend, List.rdropWhile_concat_pos _ _ _ (by decide)]
    · rw [hend]
  · rw [hline]

/-- A hash that only follows on backslashes starts no comment, up to the end of the line. -/
theorem dropComments_line {before : Char} {line : List Char} (hline : '\n' ∉ line)
    (h : (before :: line).IsChain fun before c => c = '#' → before = '\\') (rest : List Char) :
    dropComments (.after before) (line ++ '\n' :: rest)
      = line ++ '\n' :: dropComments .ready rest := by
  induction line generalizing before with
  | nil => by_cases hbefore : before = '\\' <;> simp [CommentState.after, hbefore, dropComments]
  | cons c line ih =>
    obtain ⟨hc, hrest⟩ := List.isChain_cons_cons.mp h
    have hkept := ih (fun hmem => hline (List.mem_cons_of_mem c hmem)) hrest
    by_cases hbefore : before = '\\'
    · simp [CommentState.after, hbefore, dropComments, ← hkept]
    · simp [CommentState.after, hbefore, dropComments, mt hc hbefore, ← hkept]

/-- The line of a comment that begins a pattern holds no other place where a comment may start. -/
def HasPlainFirstComment (s : List Char) : Prop :=
  s.head? = some '#' →
    (s.takeWhile (· ≠ '\n')).IsChain fun before c => c = '#' → before = '\\'

/-- The text with which a pattern is closed that does not end in an end of line. -/
def lineEnd (s : List Char) : List Char := if s.getLast? = some '\n' then [] else ['\n']

/-- A pattern is closed with one end of line or none. -/
theorem lineEnd_eq (s : List Char) : lineEnd s = [] ∨ lineEnd s = ['\n'] := by
  unfold lineEnd
  split_ifs
  · exact .inl rfl
  · exact .inr rfl

section FirstLine

variable {line : List Char} (hline : '\n' ∉ line)
include hline

theorem takeWhile_line (after : List Char) :
    (line ++ '\n' :: after).takeWhile (· ≠ '\n') = line := by
  rw [List.takeWhile_append_of_pos fun c hc => decide_eq_true (ne_of_mem_of_not_mem hc hline)]
  simp

/-- Behind a first comment is what follows its line. -/
theorem afterFirstComment_line (after : List Char) :
    afterFirstComment ('#' :: (line ++ '\n' :: after)) = after := by
  rw [afterFirstComment,
    List.dropWhile_append_of_pos fun c hc => decide_eq_true (ne_of_mem_of_not_mem hc hline)]
  simp

theorem afterFirstComment_lastLine : afterFirstComment ('#' :: line) = [] := by
  have hnone : line.dropWhile (· ≠ '\n') = [] :=
    List.dropWhile_eq_nil_iff.mpr fun c hc => decide_eq_true (ne_of_mem_of_not_mem hc hline)
  rw [afterFirstComment, hnone]
  rfl

/-- A comment at the start is left to its own rule, and goes as a whole. -/
theorem dropLeadingComment_line
    (h : ('#' :: line).IsChain fun before c => c = '#' → before = '\\') (after : List Char) :
    dropLeadingComment (dropComments .fresh ('#' :: (line ++ '\n' :: after)))
      = dropComments .ready after := by
  rw [dropComments, dropComments_line hline h, dropLeadingComment, cutChars?_append hline]
  rfl

end FirstLine

/-- The first comment of a pattern goes with its line, and from the next line on other comments go.
-/
theorem dropLeadingComment_dropComments (h : HasPlainFirstComment s) :
    ∃ ending, (ending = [] ∨ ending = ['\n']) ∧
      dropLeadingComment (dropComments .fresh (s ++ lineEnd s))
        = dropComments .ready (afterFirstComment s ++ ending) := by
  by_cases hhash : s.head? = some '#'
  · obtain ⟨rest, rfl⟩ : ∃ rest, s = '#' :: rest := List.head?_eq_some_iff.mp hhash
    have hchain := h hhash
    by_cases hmem : '\n' ∈ rest
    · obtain ⟨line, after, rfl, hline⟩ := List.eq_append_cons_of_mem hmem
      have hwhole : '\n' ∉ '#' :: line := List.not_mem_cons_of_ne_of_not_mem (by decide) hline
      rw [← List.cons_append, takeWhile_line hwhole] at hchain
      refine ⟨lineEnd ('#' :: (line ++ '\n' :: after)), lineEnd_eq _, ?_⟩
      rw [List.cons_append, List.append_assoc, List.cons_append,
        dropLeadingComment_line hline hchain, afterFirstComment_line hline]
    -- the comment is all of the pattern, which is closed with an end of line for it
    · have hline : '\n' ∉ '#' :: rest := List.not_mem_cons_of_ne_of_not_mem (by decide) hmem
      have hend : lineEnd ('#' :: rest) = ['\n'] :=
        if_neg fun hlast => hline (List.mem_of_getLast? hlast)
      have hwhole : ('#' :: rest).takeWhile (· ≠ '\n') = '#' :: rest :=
        List.takeWhile_eq_self_iff.mpr fun c hc =>
          decide_eq_true (ne_of_mem_of_not_mem hc hline)
      rw [hwhole] at hchain
      refine ⟨[], .inl rfl, ?_⟩
      rw [hend, List.cons_append, dropLeadingComment_line hmem hchain,
        afterFirstComment_lastLine hmem]
      rfl
  · refine ⟨lineEnd s, lineEnd_eq s, ?_⟩
    cases s with
    | nil => rfl
    | cons c rest =>
      have hc : c ≠ '#' := fun hc => hhash (congrArg some hc)
      simp [dropComments, dropLeadingComment, afterFirstComment, hc]

/-- What is left of a whole pattern is what is left from its first line on, less the blanks at the
end. -/
theorem condense_eq {s : String} (h : HasPlainFirstComment s.toList) :
    (condense s).toList
      = (cleaned (.outside .other) (afterFirstComment s.toList)).rdropWhile isBlank := by
  obtain ⟨ending, hending, hlines⟩ := dropLeadingComment_dropComments h
  have hcleaned :
      (cleaned (.outside .other) (afterFirstComment s.toList ++ ending)).rdropWhile isBlank
        = (cleaned (.outside .other) (afterFirstComment s.toList)).rdropWhile isBlank := by
    obtain rfl | rfl := hending
    · rw [List.append_nil]
    · exact rdropWhile_cleaned_append_newline _ _
  rw [← hcleaned, condense, String.toList_ofList, trimChars_dropBlanks]
  exact congrArg (fun s => (dropBlanks true s).rdropWhile isBlank) hlines

/-- **The passes and the one reader agree exactly on patterns in which comments and blanks follow
only on what they may follow on, and in which nothing that is kept ends in an escaped blank.** -/
theorem condense_eq_scan_iff {s : String} (h : HasPlainFirstComment s.toList) :
    condense s = scan s ↔
      isRegular s = true ∧ ∀ c, (scan s).toList.getLast? = some c → isBlank c = false := by
  have hscan : scanFrom .outside (afterFirstComment s.toList) = (scan s).toList := by
    rw [scanFrom_afterFirstComment, scan, String.toList_ofList]
  have hplace : Stand.place (.outside .other) = .outside := rfl
  rw [← String.toList_inj, condense_eq h]
  cases hregular : isRegular s with
  | false =>
    have hdifferent := cleaned_of_not_isRegularFrom hregular
    rw [hplace, hscan] at hdifferent
    simpa using hdifferent
  | true =>
    obtain ⟨blanks, hblanks, hcleaned⟩ := cleaned_of_isRegularFrom hregular
    have hkept : (cleaned (.outside .other) (afterFirstComment s.toList)).rdropWhile isBlank
        = (scan s).toList.rdropWhile isBlank := by
      rw [hcleaned, hplace, hscan, List.rdropWhile, List.reverse_append,
        List.dropWhile_append_of_pos fun c hc => hblanks c (List.mem_reverse.mp hc)]
      rfl
    have hlast : (∀ hne : (scan s).toList ≠ [], ¬isBlank ((scan s).toList.getLast hne) = true)
        ↔ ∀ c, (scan s).toList.getLast? = some c → isBlank c = false := by
      constructor
      · intro h c hc
        obtain ⟨hne, rfl⟩ := List.mem_getLast?_eq_getLast hc
        exact Bool.eq_false_iff.mpr (h hne)
      · intro h hne
        exact Bool.eq_false_iff.mp (h _ (List.getLast?_eq_some_getLast hne))
    rw [hkept, List.rdropWhile_eq_self_iff, hlast]
    exact (and_iff_right rfl).symm

/-- A comment at the start, an escaped blank and a comment behind the pattern. -/
theorem condense_escaped_blank :
    HasPlainFirstComment "# names\n^ab\\ c # end\nd".toList
      ∧ condense "# names\n^ab\\ c # end\nd" = "^ab\\ cd" := by
  have hfirst : HasPlainFirstComment "# names\n^ab\\ c # end\nd".toList := by
    unfold HasPlainFirstComment
    decide
  have hend : (scan "# names\n^ab\\ c # end\nd").toList.getLast? = some 'd' := by decide
  refine ⟨hfirst, ((condense_eq_scan_iff hfirst).mpr ⟨by decide, ?_⟩).trans (by decide)⟩
  intro c hc
  obtain rfl : 'd' = c := Option.some.inj (hend.symm.trans hc)
  decide

/-- The second of two comments stays, as the end of the first one's line went with the first; a
blank stays behind an escaped backslash; and an escaped blank goes from the end. -/
theorem condense_ne_scan :
    (condense "a #x\n#y\nb" = "a#yb" ∧ scan "a #x\n#y\nb" = "ab")
      ∧ (condense "a\\\\ b" = "a\\\\ b" ∧ scan "a\\\\ b" = "a\\\\b")
      ∧ (condense "a\\ " = "a\\" ∧ scan "a\\ " = "a\\ ") := by
  decide

end ObjectStore.Text.Pattern
