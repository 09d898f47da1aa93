import Mathlib.Data.List.Basic
import ObjectStore.Proofs.Text.Split
import ObjectStore.Text.Pattern

/-!
# Literal regions

A pattern taken apart at its literal regions (`Parts`) says what its engine form should be: the
anchors stay, what stands outside of the regions is passed on, and inside of them every character
that is no letter, no digit and no space is escaped; quotes are doubled for the text of a statement.

The engine form looks for the first opening mark and takes everything behind it for one region. So
it is what the parts say if there is no region, or one that is closed at the end of the pattern; in
a pattern with more than that, the first closing mark is escaped as if it were part of the region
(`double_engineForm_eq_spelled`).
-/

namespace ObjectStore.Text.Pattern

variable {a b s t before body literal : List Char} {c letter : Char}

/-! ## Patterns in parts -/

/-- A literal region on one line, and what follows it outside of regions. -/
structure Region where
  literal : List Char
  after : List Char
  literal_mark : occursIn (mark 'E') literal = false
  literal_line : '\n' ∉ literal
  after_raw : '\\' ∉ after

/-- A pattern in parts: what stands before its regions, the regions, and its anchors, which are no
part of what stands outside. -/
structure Parts where
  opens : Bool
  before : List Char
  regions : List Region
  closes : Bool
  before_raw : '\\' ∉ before
  before_anchor : opens = false → before.head? ≠ some '^'
  after_anchor : closes = false →
    ((regions.getLast?.map Region.after).getD before).getLast? ≠ some '$'

/-- A character outside of regions as it stands in a statement. -/
def outsideChar (c : Char) : List Char := if c = '\'' then [c, c] else [c]

/-- A character of a region as it stands in a statement. -/
def insideChar (c : Char) : List Char :=
  if isPlain c then [c] else if c = '\'' then [c, c] else ['\\', c]

namespace Region

/-- A region between its marks, and what follows. -/
def text (region : Region) : List Char :=
  mark 'Q' ++ region.literal ++ mark 'E' ++ region.after

/-- A region as it should stand in a statement, and what follows. -/
def spelled (region : Region) : List Char :=
  region.literal.flatMap insideChar ++ region.after.flatMap outsideChar

end Region

namespace Parts

variable (p : Parts)

/-- What stands between the anchors. -/
def inner : List Char := p.before ++ p.regions.flatMap Region.text

/-- The anchor at the start. -/
def opening : List Char := if p.opens then ['^'] else []

/-- The anchor at the end. -/
def closing : List Char := if p.closes then ['$'] else []

/-- The pattern. -/
def text : String := String.ofList (p.opening ++ p.inner ++ p.closing)

/-- What should stand in a statement for the pattern. -/
def spelled : String :=
  String.ofList (p.opening ++ (p.before.flatMap outsideChar ++ p.regions.flatMap Region.spelled)
    ++ p.closing)

/-- Whether there is no region, or one that ends the pattern and one anchor at most. -/
def IsSimple : Prop :=
  p.regions = [] ∨ (p.opens && p.closes) = false ∧ p.regions.map Region.after = [[]]

end Parts

/-! ## Texts without marks -/

/-- A text without a backslash starts with no mark. -/
theorem afterStart?_mark (h : '\\' ∉ s) : afterStart? (mark letter) s = none := by
  rw [Option.eq_none_iff_forall_ne_some]
  intro rest hrest
  exact h (by simp [eq_append_of_afterStart? hrest, mark])

/-- A text without a backslash opens no region. -/
theorem openRegion?_of_raw (h : '\\' ∉ s) : openRegion? s = none := by
  induction s with
  | nil => rfl
  | cons c rest ih =>
    rw [openRegion?, afterStart?_mark h, ih (List.not_mem_of_not_mem_cons h)]
    rfl

/-- Nor is there a region at its end. -/
theorem lastRegion?_of_raw (h : '\\' ∉ s) : lastRegion? s = none := by
  have hend : beforeEnd? (mark 'E') s = none := by
    rw [Option.eq_none_iff_forall_ne_some]
    intro shorter hshorter
    exact h (by simp [eq_append_of_beforeEnd? hshorter, mark])
  rw [lastRegion?, hend, Option.bind_none, openRegion?_of_raw h]

/-- A text without a backslash has no stray marks to drop. -/
theorem dropStrayMark_of_raw (h : '\\' ∉ s) : dropStrayMark letter s = s := by
  induction s with
  | nil => rfl
  | cons c rest ih =>
    have hrest : '\\' ∉ rest := List.not_mem_of_not_mem_cons h
    rw [dropStrayMark, afterStart?_mark hrest, ite_self, ih hrest]

/-- What stands outside of regions is passed on. -/
theorem engineChars_of_raw (h : '\\' ∉ s) : engineChars s = s := by
  rw [engineChars]
  split
  · next hregion =>
    rw [lastRegion?_of_raw h] at hregion
    cases hregion
  · rw [dropStrayMarks, dropStrayMark_of_raw h, dropStrayMark_of_raw h, dropLeadingMark,
      afterStart?_mark h, afterStart?_mark h, Option.getD_none]

/-! ## The first region -/

/-- The first opening mark is the one behind a text without a backslash. -/
theorem openRegion?_append (hbefore : '\\' ∉ before) (hbody : isRegion body = true) :
    openRegion? (before ++ (mark 'Q' ++ body)) = some (before, body) := by
  induction before with
  | nil =>
    have hstart : afterStart? (mark 'Q') ('\\' :: 'Q' :: body) = some body := afterStart?_append _ _
    change openRegion? ('\\' :: 'Q' :: body) = _
    rw [openRegion?, hstart, Option.filter_some_pos hbody]
  -- no mark starts at a character of the text before it
  | cons c before ih =>
    have hc : c ≠ '\\' := fun hc => hbefore (hc ▸ List.mem_cons_self)
    have hstart (rest : List Char) : afterStart? (mark 'Q') (c :: rest) = none := if_neg hc.symm
    rw [List.cons_append, openRegion?, hstart, ih (List.not_mem_of_not_mem_cons hbefore)]
    rfl

/-- A region that ends a pattern is looked for without its closing mark. -/
theorem lastRegion?_closed (hbefore : '\\' ∉ before) (hbody : isRegion body = true) :
    lastRegion? (before ++ (mark 'Q' ++ body) ++ mark 'E') = some (before, body) := by
  rw [lastRegion?, beforeEnd?_append, Option.bind_some, openRegion?_append hbefore hbody]

/-- A region that is not closed at the end goes on to the end. -/
theorem lastRegion?_open (hend : beforeEnd? (mark 'E') (before ++ (mark 'Q' ++ body)) = none)
    (hbefore : '\\' ∉ before) (hbody : isRegion body = true) :
    lastRegion? (before ++ (mark 'Q' ++ body)) = some (before, body) := by
  rw [lastRegion?, hend, Option.bind_none, openRegion?_append hbefore hbody]

/-- Everything behind the opening mark that is found is escaped. -/
theorem engineChars_of_lastRegion? (h : lastRegion? s = some (before, body))
    (hbefore : '\\' ∉ before) : engineChars s = before ++ escape body := by
  rw [engineChars]
  split
  · next hregion =>
    rw [h] at hregion
    cases hregion
    rw [engineChars_of_raw hbefore]
  · next hregion =>
    rw [h] at hregion
    cases hregion

namespace Region

variable (region : Region)

/-- The literal of a region is one: it has no closing mark, and stands on one line. -/
theorem isRegion_literal : isRegion region.literal = true := by
  have hstart : (mark 'E').isPrefixOf region.literal = false := by
    have hmark := region.literal_mark
    cases hliteral : region.literal with
    | nil => rfl
    | cons c rest =>
      rw [hliteral, occursIn, Bool.or_eq_false_iff] at hmark
      exact hmark.1
  simp [isRegion, hstart, region.literal_line]

/-- A literal, and whatever follows its closing mark on the same line, would make one region. -/
theorem isRegion_append (hne : region.literal ≠ []) (ht : '\n' ∉ t) :
    isRegion (region.literal ++ (mark 'E' ++ t)) = true := by
  have hstart : (mark 'E').isPrefixOf (region.literal ++ (mark 'E' ++ t)) = false := by
    have hmark := region.literal_mark
    match hliteral : region.literal with
    | [] => exact absurd hliteral hne
    -- a single character in front of the mark keeps the mark from starting there
    | [c] => simp [mark, List.isPrefixOf]
    | c :: d :: rest =>
      rw [hliteral, occursIn, Bool.or_eq_false_iff] at hmark
      simpa [mark, List.isPrefixOf] using hmark.1
  have hline : '\n' ∉ region.literal ++ (mark 'E' ++ t) := by
    simp [region.literal_line, ht, mark]
  simp [isRegion, hstart, hline]

end Region

/-- A closing mark that ends a text does not reach into one before it. -/
theorem beforeEnd?_mark_append (hend : beforeEnd? (mark 'E') t = none) (ht : t ≠ []) :
    beforeEnd? (mark 'E') (s ++ mark 'E' ++ t) = none := by
  rw [Option.eq_none_iff_forall_ne_some]
  intro shorter hshorter
  -- the mark that is found ends `t` itself, or starts in front of it
  obtain ⟨rest, -, hrest⟩ | ⟨rest, hs, hrest⟩ :=
    List.append_eq_append_iff.mp (eq_append_of_beforeEnd? hshorter)
  · rw [hrest, beforeEnd?_append] at hend
    cases hend
  · match rest with
    | [] =>
      rw [← hrest.trans (List.nil_append t)] at hend
      cases hend
    | [c] =>
      have hlast := congrArg List.getLast? hs
      have hc : c = '\\' := by simpa [mark] using (List.cons.inj hrest).1.symm
      simp [mark, hc] at hlast
    | c :: d :: more =>
      simp [mark] at hrest
      exact ht hrest.2.2.2

/-- With something behind the closing mark of the first region, everything from there on is escaped,
up to a mark that closes the pattern. -/
theorem exists_engineChars (region : Region) (hbefore : '\\' ∉ before) (hne : region.literal ≠ [])
    (ht : '\n' ∉ t) (htail : t ≠ []) :
    ∃ rest, (rest = t ∨ rest ++ mark 'E' = t) ∧
      engineChars (before ++ (mark 'Q' ++ (region.literal ++ (mark 'E' ++ t))))
        = before ++ escape (region.literal ++ (mark 'E' ++ rest)) := by
  -- a mark that closes the pattern is taken off before the region is looked for
  cases hend : beforeEnd? (mark 'E') t with
  | some rest =>
    have hrest := eq_append_of_beforeEnd? hend
    subst hrest
    have hline : '\n' ∉ rest := fun hmem => ht (List.mem_append_left _ hmem)
    refine ⟨rest, .inr rfl, engineChars_of_lastRegion? ?_ hbefore⟩
    simpa using lastRegion?_closed hbefore (region.isRegion_append hne hline)
  | none =>
    refine ⟨t, .inl rfl, engineChars_of_lastRegion? (lastRegion?_open ?_ hbefore
      (region.isRegion_append hne ht)) hbefore⟩
    simpa using beforeEnd?_mark_append (s := before ++ (mark 'Q' ++ region.literal)) hend htail

/-! ## Anchors -/

/-- An anchor at the start is found. -/
theorem dropStart?_opening (s : List Char) :
    dropStart? (String.ofList ('^' :: s)) "^" = some (String.ofList s) := by
  simpa using dropStart?_append "^" (String.ofList s)

/-- Behind an anchor at the start, all of the pattern is read, an anchor at the end too. -/
theorem engineForm_opening (s : List Char) :
    engineForm (String.ofList ('^' :: s)) = String.ofList ('^' :: engineChars s) := by
  rw [engineForm, dropStart?_opening]
  simp [enginePart]

/-- A pattern that starts otherwise has no anchor there. -/
theorem dropStart?_anchor (h : s.head? ≠ some '^') : dropStart? (String.ofList s) "^" = none := by
  rw [dropStart?, Option.map_eq_none_iff, Option.eq_none_iff_forall_ne_some]
  intro rest hrest
  have hs : s = ['^'] ++ rest := String.toList_ofList.symm.trans (eq_append_of_afterStart? hrest)
  exact h (hs ▸ rfl)

/-- A pattern that ends otherwise has no anchor there. -/
theorem dropEnd?_anchor (h : s.getLast? ≠ some '$') : dropEnd? (String.ofList s) "$" = none := by
  rw [dropEnd?, Option.map_eq_none_iff, Option.eq_none_iff_forall_ne_some]
  intro rest hrest
  have hs : s = rest ++ ['$'] := String.toList_ofList.symm.trans (eq_append_of_beforeEnd? hrest)
  exact h (hs ▸ List.getLast?_concat)

/-- Without an anchor at the start, the one at the end is not read. -/
theorem engineForm_closing (h : (s ++ ['$']).head? ≠ some '^') :
    engineForm (String.ofList (s ++ ['$'])) = String.ofList (engineChars s ++ ['$']) := by
  have hdrop : dropEnd? (String.ofList (s ++ ['$'])) "$" = some (String.ofList s) := by
    simpa using dropEnd?_append (String.ofList s) "$"
  rw [engineForm, dropStart?_anchor h, hdrop]
  simp [enginePart]

/-- Without anchors all of the pattern is read. -/
theorem engineForm_bare (hstart : s.head? ≠ some '^') (hend : s.getLast? ≠ some '$') :
    engineForm (String.ofList s) = String.ofList (engineChars s) := by
  rw [engineForm, dropStart?_anchor hstart, dropEnd?_anchor hend]
  simp [enginePart]

namespace Parts

variable (p : Parts)

/-- What is read for regions: an anchor at the end is read too if there is one at the start. -/
def read : List Char := if p.opens then p.inner ++ p.closing else p.inner

/-- The anchor at the end if it is not read. -/
def unread : List Char := if p.opens then [] else p.closing

/-- Without an anchor at the start the pattern does not start with its sign. -/
theorem head?_inner (h : p.opens = false) (ending : List Char) (hending : ending.head? ≠ some '^') :
    (p.inner ++ ending).head? ≠ some '^' := by
  have hbefore := p.before_anchor h
  unfold inner
  cases hs : p.before with
  | cons c before => simpa [hs] using hbefore
  | nil =>
    cases p.regions with
    | nil => simpa using hending
    | cons region more => simp [Region.text, mark]

/-- Without an anchor at the end the pattern does not end with its sign. -/
theorem getLast?_inner (h : p.closes = false) : p.inner.getLast? ≠ some '$' := by
  have hafter := p.after_anchor h
  obtain hregions | ⟨regions, region, hregions⟩ := List.eq_nil_or_concat p.regions
  · simpa [inner, hregions] using hafter
  · have hregion : region.after.getLast? ≠ some '$' := by simpa [hregions] using hafter
    have hinner : p.inner = p.before ++ regions.flatMap Region.text ++ mark 'Q' ++ region.literal
        ++ ['\\'] ++ ['E'] ++ region.after := by
      simp [inner, hregions, Region.text, mark]
    rw [hinner, List.getLast?_append]
    cases hlast : region.after.getLast? with
    | none => simp
    | some c => simpa [hlast] using hregion

/-- The engine form of a pattern is what is read, in its engine form, between the anchors that are
not. -/
theorem engineForm_text :
    engineForm p.text = String.ofList (p.opening ++ engineChars p.read ++ p.unread) := by
  unfold text
  -- one case for each pair of anchors
  cases hopens : p.opens with
  | true =>
    have hopening : p.opening = ['^'] := if_pos hopens
    rw [hopening, read, unread, if_pos hopens, if_pos hopens, List.append_nil]
    exact engineForm_opening (p.inner ++ p.closing)
  | false =>
    have hread : ¬p.opens = true := by simp [hopens]
    have hopening : p.opening = [] := if_neg hread
    rw [hopening, read, unread, if_neg hread, if_neg hread, List.nil_append, List.nil_append]
    cases hcloses : p.closes with
    | true =>
      have hclosing : p.closing = ['$'] := if_pos hcloses
      rw [hclosing]
      exact engineForm_closing (p.head?_inner hopens ['$'] (by decide))
    | false =>
      have hclosing : p.closing = [] := if_neg (by simp [hcloses])
      have hstart := p.head?_inner hopens [] (by decide)
      rw [List.append_nil] at hstart
      rw [hclosing, List.append_nil, List.append_nil]
      exact engineForm_bare hstart (p.getLast?_inner hcloses)

end Parts

/-! ## Quotes -/

/-- Doubling quotes is what happens to characters outside of regions. -/
theorem double_ofList (s : List Char) :
    double '\'' (String.ofList s) = String.ofList (s.flatMap outsideChar) := by
  rw [double, String.toList_ofList]
  rfl

/-- A quote is no letter, digit or space. -/
theorem isPlain_quote : isPlain '\'' = false := by
  decide +kernel

/-- Characters that are escaped and then doubled stand in a statement as those of a region should.
-/
theorem flatMap_outsideChar_escape (s : List Char) :
    (escape s).flatMap outsideChar = s.flatMap insideChar := by
  rw [escape, List.flatMap_assoc]
  refine List.flatMap_congr ?_
  intro c _
  unfold escapeChar insideChar outsideChar
  by_cases hquote : c = '\''
  · simp [hquote, isPlain_quote]
  · by_cases hplain : isPlain c = true <;> simp [hquote, hplain]

namespace Parts

variable (p : Parts)

/-- The anchor at the end is no quote. -/
theorem closing_flatMap_outsideChar : p.closing.flatMap outsideChar = p.closing := by
  unfold closing
  split_ifs <;> rfl

/-- The anchors hold no quotes. -/
theorem double_engineForm_text : double '\'' (engineForm p.text)
    = String.ofList (p.opening ++ (engineChars p.read).flatMap outsideChar ++ p.unread) := by
  have hopening : p.opening.flatMap outsideChar = p.opening := by
    unfold opening
    split_ifs <;> rfl
  have hunread : p.unread.flatMap outsideChar = p.unread := by
    unfold unread
    split_ifs
    · rfl
    · exact p.closing_flatMap_outsideChar
  rw [p.engineForm_text, double_ofList, List.flatMap_append, List.flatMap_append, hopening, hunread]

/-- **No region, or one at the end of the pattern: every character of it is escaped that has to be,
and nothing else is changed.** -/
theorem double_engineForm_of_isSimple (h : p.IsSimple) :
    double '\'' (engineForm p.text) = p.spelled := by
  suffices hread : (engineChars p.read).flatMap outsideChar ++ p.unread
      = p.before.flatMap outsideChar ++ p.regions.flatMap Region.spelled ++ p.closing by
    rw [double_engineForm_text, List.append_assoc, hread, spelled]
    simp
  -- without a region all is passed on; a single one is closed at the end of what is read
  obtain hregions | ⟨hanchors, hregions⟩ := h
  · have hinner : p.inner = p.before := by simp [inner, hregions]
    have hclosing : '\\' ∉ p.before ++ p.closing := by
      unfold closing
      split_ifs <;> simp [p.before_raw]
    rw [hregions, List.flatMap_nil, List.append_nil, read, unread, hinner]
    split_ifs
    · rw [engineChars_of_raw hclosing, List.flatMap_append, p.closing_flatMap_outsideChar,
        List.append_nil]
    · rw [engineChars_of_raw p.before_raw]
  · obtain ⟨region, hregion, hafter⟩ := List.map_eq_singleton_iff.mp hregions
    have hread : p.read = p.before ++ (mark 'Q' ++ region.literal) ++ mark 'E' := by
      have hclosing (hopens : p.opens = true) : p.closing = [] :=
        if_neg (by simpa [hopens] using hanchors)
      unfold read
      split_ifs with hopens <;> simp [inner, hregion, Region.text, hafter, hclosing, hopens]
    have hunread : p.unread = p.closing := by
      unfold unread
      split_ifs with hopens
      · exact (if_neg (by simpa [hopens] using hanchors)).symm
      · rfl
    rw [hread, hunread, engineChars_of_lastRegion?
      (lastRegion?_closed p.before_raw region.isRegion_literal) p.before_raw, List.flatMap_append,
      flatMap_outsideChar_escape, hregion]
    simp [Region.spelled, hafter]

end Parts

/-! ## What the regions come to -/

section Count

/-- The backslashes that a text has in a region. -/
def escapes (s : List Char) : Nat := (s.flatMap insideChar).count '\\'

/-- Texts in a row have the backslashes of both. -/
theorem escapes_append (s t : List Char) : escapes (s ++ t) = escapes s + escapes t := by
  rw [escapes, List.flatMap_append, List.count_append]
  rfl

/-- A mark that is escaped leaves its own backslash and one before it. -/
theorem two_le_escapes_mark : 2 ≤ escapes (mark letter) := by
  have hbackslash : insideChar '\\' = ['\\', '\\'] := by decide +kernel
  simp [escapes, mark, hbackslash]

/-- Outside of regions no backslash is added. -/
theorem count_outside (h : '\\' ∉ s) : (s.flatMap outsideChar).count '\\' = 0 := by
  rw [List.count_eq_zero, List.mem_flatMap]
  rintro ⟨c, hc, hmem⟩
  rw [outsideChar] at hmem
  split_ifs at hmem with hquote
  · simp [hquote] at hmem
  · exact h (List.mem_singleton.mp hmem ▸ hc)

/-- A region should have the backslashes of its literal. -/
theorem Region.count_spelled (region : Region) :
    region.spelled.count '\\' = escapes region.literal := by
  rw [Region.spelled, List.count_append, count_outside region.after_raw]
  rfl

/-- Escaped with their marks, regions have more backslashes than they should. -/
theorem count_flatMap_spelled_le (regions : List Region) :
    (regions.flatMap Region.spelled).count '\\' + 2 * regions.length
      ≤ escapes (regions.flatMap Region.text) := by
  induction regions with
  | nil => simp
  | cons region more ih =>
    have hmark : 2 ≤ escapes (mark 'E') := two_le_escapes_mark
    rw [List.flatMap_cons, List.flatMap_cons, List.count_append, escapes_append,
      region.count_spelled, Region.text, escapes_append, escapes_append, escapes_append,
      List.length_cons]
    omega

namespace Parts

variable (p : Parts)

/-- What is read behind the closing mark of a first region. -/
def tail (region : Region) (more : List Region) : List Char :=
  region.after ++ more.flatMap Region.text ++ if p.opens then p.closing else []

variable {p} {region : Region} {more : List Region}

/-- What is read starts with the first region and its closing mark. -/
theorem read_eq_tail (hp : p.regions = region :: more) :
    p.read = p.before ++ (mark 'Q' ++ (region.literal ++ (mark 'E' ++ p.tail region more))) := by
  unfold read tail
  split_ifs <;> simp [inner, hp, Region.text]

/-- The anchor at the end is no backslash. -/
theorem count_closing : p.closing.count '\\' = 0 := by
  unfold closing
  split_ifs <;> rfl

/-- Nor is it where it is not read. -/
theorem count_unread : p.unread.count '\\' = 0 := by
  unfold unread
  split_ifs
  · rfl
  · exact count_closing

/-- With nothing behind the first region, the pattern is simple. -/
theorem isSimple_of_tail (hp : p.regions = region :: more) (htail : p.tail region more = []) :
    p.IsSimple := by
  simp only [tail, List.append_eq_nil_iff, List.flatMap_eq_nil_iff] at htail
  obtain ⟨⟨hafter, hmore⟩, hclosing⟩ := htail
  have hnone : more = [] := List.eq_nil_iff_forall_not_mem.mpr fun region hregion => by
    simpa [Region.text, mark] using hmore region hregion
  refine .inr ⟨?_, by simp [hp, hafter, hnone]⟩
  cases hopens : p.opens with
  | false => rfl
  | true => simpa [hopens, closing] using hclosing

/-- What is behind the first region stands on one line if what follows each region does. -/
theorem newline_notMem_tail (hlines : ∀ part ∈ region :: more, '\n' ∉ part.after) :
    '\n' ∉ p.tail region more := by
  obtain ⟨hline, hmore⟩ := List.forall_mem_cons.mp hlines
  have hregions : '\n' ∉ more.flatMap Region.text := by
    rw [List.mem_flatMap]
    rintro ⟨region, hregion, hmem⟩
    simp [Region.text, mark, region.literal_line, hmore region hregion] at hmem
  have hclosing : '\n' ∉ if p.opens then p.closing else [] := by
    unfold closing
    split_ifs <;> simp
  simp [tail, hline, hregions, hclosing]

/-- **With more than that, the marks would have to be escaped too.** -/
theorem isSimple_of_double_engineForm
    (hregions : ∀ region ∈ p.regions, region.literal ≠ [] ∧ '\n' ∉ region.after)
    (h : double '\'' (engineForm p.text) = p.spelled) : p.IsSimple := by
  cases hp : p.regions with
  | nil => exact .inl hp
  | cons region more =>
    rw [hp] at hregions
    by_contra hsimple
    obtain ⟨rest, hrest, hengine⟩ := exists_engineChars region p.before_raw
      (hregions region List.mem_cons_self).1
      (newline_notMem_tail fun part hpart => (hregions part hpart).2)
      (mt (isSimple_of_tail hp) hsimple)
    -- Both sides are compared by their backslashes only.
    have hcount : escapes region.literal + (escapes (mark 'E') + escapes rest)
        = escapes region.literal + (more.flatMap Region.spelled).count '\\' := by
      rw [p.double_engineForm_text, read_eq_tail hp, hengine, spelled, hp, List.flatMap_append,
        flatMap_outsideChar_escape, List.flatMap_cons] at h
      have hchars := congrArg (List.count '\\') (String.ofList_injective h)
      simp only [List.count_append, region.count_spelled, count_closing, count_unread,
        count_outside p.before_raw] at hchars
      rw [← escapes, escapes_append, escapes_append] at hchars
      omega
    have hmark : 2 ≤ escapes (mark 'E') := two_le_escapes_mark
    have hmore := count_flatMap_spelled_le more
    have htail : escapes (more.flatMap Region.text) ≤ escapes (p.tail region more) := by
      rw [tail, escapes_append, escapes_append]
      omega
    obtain rfl | hrest := hrest
    · omega
    · rw [← hrest, escapes_append] at htail
      cases more with
      | nil =>
        rw [List.flatMap_nil, List.count_nil] at hcount
        omega
      | cons next more =>
        rw [List.length_cons] at hmore
        omega

/-- **The engine form is what the parts of a pattern say if there is no region, or one that ends the
pattern and one anchor at most. If no region is empty and what follows them stays on one line, in no
other pattern is it.** -/
theorem double_engineForm_eq_spelled (p : Parts) :
    (p.IsSimple → double '\'' (engineForm p.text) = p.spelled) ∧
      ((∀ region ∈ p.regions, region.literal ≠ [] ∧ '\n' ∉ region.after) →
        double '\'' (engineForm p.text) = p.spelled → p.IsSimple) :=
  ⟨p.double_engineForm_of_isSimple, isSimple_of_double_engineForm⟩

end Parts

end Count

/-- A region behind a quote, with a dot in it. -/
def quotedName : Parts where
  opens := true
  before := "it's ".toList
  regions := [⟨"a.b's".toList, [], by decide, by decide, by decide⟩]
  closes := false
  before_raw := by decide
  before_anchor := by decide
  after_anchor := by decide

/-- A region in the middle of a pattern. -/
def middleName : Parts where
  opens := false
  before := []
  regions := [⟨"a.b".toList, ['c'], by decide, by decide, by decide⟩]
  closes := false
  before_raw := by decide
  before_anchor := by decide
  after_anchor := by decide

/-- A region that ends a pattern stands in a statement as it should, one with a letter behind it
does not. -/
theorem double_engineForm_quotedName :
    (quotedName.IsSimple ∧ double '\'' (engineForm quotedName.text) = "^it''s a\\.b''s")
      ∧ (∀ region ∈ middleName.regions, region.literal ≠ [] ∧ '\n' ∉ region.after)
      ∧ double '\'' (engineForm middleName.text) ≠ middleName.spelled := by
  have hsimple : quotedName.IsSimple := .inr (by decide)
  have hmiddle : ¬middleName.IsSimple := by
    rintro (h | h)
    · cases h
    · exact absurd h.2 (by decide)
  refine ⟨⟨hsimple, ((Parts.double_engineForm_eq_spelled quotedName).1 hsimple).trans ?_⟩,
    by decide, fun h => hmiddle ((Parts.double_engineForm_eq_spelled middleName).2 (by decide) h)⟩
  decide +kernel

/-- Everything behind the opening mark is escaped, the closing mark too. -/
theorem double_engineForm_middleName :
    double '\'' (engineForm middleName.text) = "a\\.b\\\\Ec" ∧ middleName.spelled = "a\\.bc" := by
  decide +kernel

end ObjectStore.Text.Pattern
