import ObjectStore.Text.Letter
import ObjectStore.Text.Split

/-!
# Cutting texts

A text in which the separator does not occur is its own only part, and any other text has its first
character in its first part, unless this is the separator.

A start, an end and a separator are found again where they were put, as long as the separator does
not begin inside a part. So joined parts are split into the same parts (`splitAt_join`).
-/

namespace ObjectStore.Text

variable {c : Char} {s a b : List Char}

/-! ## Cutting at a character -/

/-- Looking for a text of one character is looking for the character. -/
theorem occursIn_singleton : occursIn [c] s = true ↔ c ∈ s := by
  induction s with
  | nil => simp [occursIn]
  | cons d rest ih => simp [occursIn, List.isPrefixOf, ih]

/-- Looking for a text in another is looking for an infix. -/
theorem occursIn_iff_infix {part : List Char} : occursIn part s = true ↔ part <:+: s := by
  induction s with
  | nil => rw [occursIn, List.isEmpty_iff, List.infix_nil]
  | cons c s ih =>
    rw [occursIn, Bool.or_eq_true, List.isPrefixOf_iff_prefix, ih, List.infix_cons_iff]

theorem occursIn_append (part s : List Char) : occursIn part (s ++ part) = true :=
  occursIn_iff_infix.mpr (List.suffix_append s part).isInfix

/-- A text without the separator is its only part. -/
theorem splitChars_of_notMem (h : c ∉ s) : splitChars c s = [s] := by
  induction s with
  | nil => rfl
  | cons d rest ih =>
    rw [List.mem_cons, not_or] at h
    rw [splitChars, if_neg (Ne.symm h.1), ih h.2]

/-- A character other than the separator begins the first part. -/
theorem exists_splitChars_cons {d : Char} (h : d ≠ c) (s : List Char) :
    ∃ part parts, splitChars c (d :: s) = (d :: part) :: parts := by
  rw [splitChars, if_neg h]
  split
  · exact ⟨_, _, rfl⟩
  · exact ⟨[], [], rfl⟩

/-- A text without dots has one part. -/
theorem split_of_not_contains {name : String} (h : contains name "." = false) :
    split '.' name = [name] := by
  have hdot : '.' ∉ name.toList := fun hmem =>
    Bool.false_ne_true (h.symm.trans (occursIn_singleton.mpr hmem))
  rw [split, splitChars_of_notMem hdot, List.map_singleton, String.ofList_toList]

/-! ## Cutting what was put together -/

/-- What was put behind a start is what is left when the start is dropped. -/
theorem afterStart?_append (a b : List Char) : afterStart? a (a ++ b) = some b := by
  induction a with
  | nil => rfl
  | cons c a ih => rw [List.cons_append, afterStart?, if_pos rfl, ih]

/-- A start is dropped only where it stands. -/
theorem eq_append_of_afterStart? (h : afterStart? a s = some b) : s = a ++ b := by
  induction a generalizing s with
  | nil => exact Option.some.inj h
  | cons c a ih =>
    cases s with
    | nil => cases h
    | cons d s =>
      rw [afterStart?] at h
      split at h
      · next hcd => rw [hcd, ih h, List.cons_append]
      · cases h

theorem beforeEnd?_append (a b : List Char) : beforeEnd? b (a ++ b) = some a := by
  rw [beforeEnd?, List.reverse_append, afterStart?_append, Option.map_some, List.reverse_reverse]

/-- An end is dropped only where it stands. -/
theorem eq_append_of_beforeEnd? (h : beforeEnd? b s = some a) : s = a ++ b := by
  obtain ⟨reversed, hreversed, rfl⟩ := Option.map_eq_some_iff.mp h
  rw [← List.reverse_inj, List.reverse_append, List.reverse_reverse]
  exact eq_append_of_afterStart? hreversed

/-- A start in two parts is dropped part by part. -/
theorem afterStart?_append_left (a b s : List Char) :
    afterStart? (a ++ b) s = (afterStart? a s).bind (afterStart? b) := by
  induction a generalizing s with
  | nil => rfl
  | cons c a ih =>
    cases s with
    | nil => rfl
    | cons d s => by_cases hc : c = d <;> simp [afterStart?, hc, ih]

/-- A start can be dropped if the text begins with it. -/
theorem isSome_afterStart? (a s : List Char) : (afterStart? a s).isSome = a.isPrefixOf s := by
  induction a generalizing s with
  | nil => rfl
  | cons c a ih =>
    cases s with
    | nil => rfl
    | cons d s => by_cases hc : c = d <;> simp [afterStart?, List.isPrefixOf, hc, ih]

/-- A start that was put before a text is dropped. -/
theorem dropStart?_append (a b : String) : dropStart? (a ++ b) a = some b := by
  rw [dropStart?, String.toList_append, afterStart?_append, Option.map_some, String.ofList_toList]

/-- An end that was put behind a text is dropped. -/
theorem dropEnd?_append (a b : String) : dropEnd? (a ++ b) b = some a := by
  rw [dropEnd?, String.toList_append, beforeEnd?_append, Option.map_some, String.ofList_toList]

/-- The cut is at the first separator: what stands before it has none. -/
theorem cutChars?_append (h : c ∉ a) (b : List Char) :
    cutChars? c (a ++ c :: b) = some (a, b) := by
  induction a with
  | nil => exact if_pos rfl
  | cons d a ih =>
    rw [List.mem_cons, not_or] at h
    rw [List.cons_append, cutChars?, if_neg (Ne.symm h.1), ih h.2]
    rfl

/-- A text is cut at the first separator. -/
theorem cut?_append {a b separator : String} (hseparator : separator.toList = [c])
    (h : c ∉ a.toList) : cut? c (a ++ separator ++ b) = some (a, b) := by
  rw [cut?, String.toList_append, String.toList_append, hseparator, List.append_assoc,
    List.singleton_append, cutChars?_append h]
  simp only [Option.map_some, String.ofList_toList]

section SplitAt

variable {separator part rest : List Char} {first : Char}

/-- What is to be passed over is passed over. -/
theorem splitAtChars_skipped (skipped rest : List Char) :
    splitAtChars separator skipped.length (skipped ++ rest) = splitAtChars separator 0 rest := by
  induction skipped with
  | nil => rfl
  | cons c skipped ih =>
    rw [List.cons_append, List.length_cons, splitAtChars, if_pos (Nat.succ_pos _),
      Nat.add_sub_cancel, ih]

/-- A character that does not begin a separator belongs to the part. -/
theorem splitAtChars_cons (h : c ≠ first) {parts : List (List Char)}
    (hrest : splitAtChars (first :: separator) 0 rest = part :: parts) :
    splitAtChars (first :: separator) 0 (c :: rest) = (c :: part) :: parts := by
  have hprefix : (first :: separator).isPrefixOf (c :: rest) = false := by
    rw [List.isPrefixOf, beq_false_of_ne (Ne.symm h), Bool.false_and]
  rw [splitAtChars, if_neg (Nat.lt_irrefl 0), hprefix, if_neg Bool.false_ne_true, hrest]

/-- Text without the first character of the separator joins the part that is being read. -/
theorem splitAtChars_part (h : first ∉ part) {more : List Char} {parts : List (List Char)}
    (hrest : splitAtChars (first :: separator) 0 rest = more :: parts) :
    splitAtChars (first :: separator) 0 (part ++ rest) = (part ++ more) :: parts := by
  induction part with
  | nil => exact hrest
  | cons c part ih =>
    rw [List.mem_cons, not_or] at h
    exact splitAtChars_cons (Ne.symm h.1) (ih h.2)

/-- A separator begins a new part. -/
theorem splitAtChars_separator : splitAtChars (first :: separator) 0 (first :: separator ++ rest)
    = [] :: splitAtChars (first :: separator) 0 rest := by
  have hprefix : (first :: separator).isPrefixOf (first :: separator ++ rest) = true :=
    List.isPrefixOf_iff_prefix.mpr (List.prefix_append _ _)
  rw [List.cons_append] at hprefix ⊢
  rw [splitAtChars, if_neg (Nat.lt_irrefl 0), if_pos hprefix, List.length_cons, Nat.add_sub_cancel,
    splitAtChars_skipped]

end SplitAt

/-- Joined parts are split again if no part contains the first character of the separator. -/
theorem splitAt_join {separator : String} {first : Char} {more : List Char}
    (hseparator : separator.toList = first :: more) {parts : List String} (hne : parts ≠ [])
    (h : ∀ part ∈ parts, first ∉ part.toList) :
    splitAt separator (join separator parts) = parts := by
  suffices hchars : splitAtChars separator.toList 0 (join separator parts).toList
      = parts.map String.toList by
    rw [splitAt, hchars, List.map_map]
    refine List.map_id'' ?_ parts
    intro part
    exact String.ofList_toList
  rw [hseparator]
  induction parts with
  | nil => exact absurd rfl hne
  | cons part parts ih =>
    obtain ⟨hpart, hparts⟩ := List.forall_mem_cons.mp h
    cases parts with
    | nil =>
      have hsplit : splitAtChars (first :: more) 0 (part.toList ++ []) = [part.toList ++ []] :=
        splitAtChars_part hpart rfl
      rw [List.append_nil] at hsplit
      exact hsplit
    -- the separator behind the first part, then what the others are split into
    | cons next parts =>
      have hrest := ih (List.cons_ne_nil _ _) hparts
      rw [join, String.toList_append, String.toList_append, List.append_assoc, hseparator]
      have hsplit : splitAtChars (first :: more) 0
          (part.toList ++ (first :: more ++ (join separator (next :: parts)).toList)) = _ :=
        splitAtChars_part hpart splitAtChars_separator
      rw [List.append_nil, hrest] at hsplit
      exact hsplit

/-- A text without blanks is not trimmed. -/
theorem trim_eq_self {s : String} (h : ∀ c ∈ s.toList, isBlank c = false) : trim s = s := by
  have hdrop {chars : List Char} (h : ∀ c ∈ chars, isBlank c = false) :
      chars.dropWhile isBlank = chars := by
    cases chars with
    | nil => rfl
    | cons c rest =>
      rw [List.dropWhile_cons, h c List.mem_cons_self, if_neg Bool.false_ne_true]
  rw [trim, trimChars, hdrop h, hdrop fun c hc => h c (List.mem_reverse.mp hc),
    List.reverse_reverse,
    String.ofList_toList]

end ObjectStore.Text
