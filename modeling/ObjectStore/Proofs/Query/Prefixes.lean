import ObjectStore.Proofs.Engine.Containment
import ObjectStore.Proofs.Query.Arrays
import ObjectStore.Proofs.Text.Regions

/-!
# Arrays and the starts of their items

A client asks for arrays with items that begin with some texts by patterns: each text as a literal
region behind an anchor. The pattern becomes a like-pattern, in which no character of the text is
left with a meaning of its own (`like_flatMap_insideChar`). But quotes in it are doubled, as in the
text of a statement, and the like-pattern is a bound value: so what is asked for is a start with
doubled quotes (`truth_startsWithAll`).
-/

namespace ObjectStore.Query

open Engine Text.Pattern

/-- The pattern of the texts with a start. -/
def startPattern (start : String) : String := "^\\Q" ++ start ++ "\\E"

/-- What a query asks of an array that holds an item with each of some starts. -/
def startsWithAll (starts : List String) : Json :=
  .obj [("$all", .arr (starts.map fun start => .obj [("$regex", .str (startPattern start))]))]

/-- Whether a text can be a literal region of a pattern. -/
def IsLiteral (s : String) : Prop := Text.occursIn (mark 'E') s.toList = false ∧ '\n' ∉ s.toList

/-- What the column of an array keeps of some texts. -/
def keptTexts (f : FieldRef) (texts : List String) : Held :=
  if f.isStringArray then .texts texts else .document (.arr (texts.map .str))

variable {c : Compiler} {name start : String} {starts : List String}

/-! ## Like-patterns of starts -/

theorem toList_startPattern (start : String) :
    (startPattern start).toList = '^' :: ([] ++ (mark 'Q' ++ start.toList) ++ mark 'E') := by
  rw [startPattern, String.toList_append, String.toList_append]
  rfl

/-- For the engine the pattern of a start is the start with every special character escaped, behind
the anchor. -/
theorem engineForm_startPattern (h : IsLiteral start) :
    engineForm (startPattern start) = String.ofList ('^' :: escape start.toList) := by
  have hregion : isRegion start.toList = true :=
    Region.isRegion_literal ⟨start.toList, [], h.1, h.2, List.not_mem_nil⟩
  have hlast := lastRegion?_closed List.not_mem_nil hregion
  rw [← String.ofList_toList (s := startPattern start), toList_startPattern, engineForm_opening,
    engineChars_of_lastRegion? hlast List.not_mem_nil, List.nil_append]

/-- A start in a like-pattern, with any text behind it. -/
theorem likePattern_startPattern (h : IsLiteral start) : FieldRef.likePattern (startPattern start)
    = .str (String.ofList (start.toList.flatMap insideChar ++ ['%'])) := by
  have hdouble : Text.double '\'' (engineForm (startPattern start))
      = String.ofList ('^' :: start.toList.flatMap insideChar) := by
    rw [engineForm_startPattern h, double_ofList, List.flatMap_cons, flatMap_outsideChar_escape]
    rfl
  rw [FieldRef.likePattern, hdouble, dropStart?_opening, Option.getD_some, String.ofList_append]

/-- The pattern of a literal start is one that the compiler takes. -/
theorem isAnchoredRegion_startPattern (h : IsLiteral start) :
    isAnchoredRegion (startPattern start) = true := by
  have hline : (start.toList ++ mark 'E').takeWhile (· != '\n') = start.toList ++ mark 'E' := by
    rw [List.takeWhile_eq_self_iff]
    intro c hc
    rw [bne_iff_ne]
    rintro rfl
    simp [h.2, mark] at hc
  have hregion : Text.afterStart? ('^' :: mark 'Q') (startPattern start).toList
      = some (start.toList ++ mark 'E') := by
    rw [toList_startPattern]
    exact Text.afterStart?_append ('^' :: mark 'Q') (start.toList ++ mark 'E')
  rw [toList_startPattern] at hregion
  rw [isAnchoredRegion, Text.startsWith, toList_startPattern, holdsAnchoredRegion, hregion,
    Option.any_some, hline, Text.occursIn_append]
  rfl

theorem anchored?_startPattern (h : IsLiteral start) :
    FieldRef.anchored? (.obj [("$regex", .str (startPattern start))])
      = some (startPattern start) := by
  rw [FieldRef.anchored?]
  exact Option.filter_some_pos (isAnchoredRegion_startPattern h)

/-- What stands for one character in a like-pattern matches this character, and two quotes if it is
a quote: they are doubled as if the pattern were to stand in the text of a statement. -/
theorem like_insideChar (c : Char) (pattern text : List Char) :
    like (insideChar c ++ pattern) text
      = (Text.afterStart? (outsideChar c) text).any (like pattern) := by
  have hspecial : isPlain '%' = false ∧ isPlain '_' = false ∧ isPlain '\\' = false := by
    decide +kernel
  unfold insideChar outsideChar
  by_cases hquote : c = '\''
  · subst hquote
    have hone (pattern text : List Char) : like ('\'' :: pattern) text
        = (Text.afterStart? ['\''] text).any (like pattern) :=
      like_cons (by decide) (by decide) (by decide)
    rw [isPlain_quote, if_neg Bool.false_ne_true, if_pos rfl, if_pos rfl]
    change like ('\'' :: '\'' :: pattern) text
      = (Text.afterStart? (['\''] ++ ['\'']) text).any (like pattern)
    rw [hone, Text.afterStart?_append_left]
    cases Text.afterStart? ['\''] text with
    | none => rfl
    | some rest => exact hone pattern rest
  · by_cases hplain : isPlain c = true
    · have hne {d : Char} (hd : isPlain d = false) : c ≠ d := by
        rintro rfl
        exact Bool.false_ne_true (hd.symm.trans hplain)
      rw [if_pos hplain, if_neg hquote, List.singleton_append,
        like_cons (hne hspecial.1) (hne hspecial.2.1) (hne hspecial.2.2)]
    · rw [if_neg hplain, if_neg hquote, if_neg hquote]
      exact like_escaped c pattern text

/-- A text that is escaped matches itself, with doubled quotes, and leaves what follows to the rest
of the pattern. -/
theorem like_flatMap_insideChar (s pattern text : List Char) :
    like (s.flatMap insideChar ++ pattern) text
      = (Text.afterStart? (s.flatMap outsideChar) text).any (like pattern) := by
  induction s generalizing text with
  | nil => rfl
  | cons c s ih =>
    rw [List.flatMap_cons, List.flatMap_cons, List.append_assoc, like_insideChar,
      Text.afterStart?_append_left]
    cases Text.afterStart? (outsideChar c) text with
    | none => rfl
    | some rest => exact ih rest

/-- A like-pattern of a start matches the texts that begin with it, quotes doubled. -/
theorem like_startPattern (start text : String) :
    like (start.toList.flatMap insideChar ++ ['%']) text.toList
      = Text.startsWith text (Text.double '\'' start) := by
  have hdouble : (Text.double '\'' start).toList = start.toList.flatMap outsideChar :=
    String.toList_ofList
  rw [like_flatMap_insideChar, Text.startsWith, hdouble, ← Text.isSome_afterStart?]
  cases Text.afterStart? (start.toList.flatMap outsideChar) text.toList with
  | none => rfl
  | some rest => exact like_any rest

/-! ## What is asked for -/

/-- A query for starts compiles to one predicate over the patterns of the starts. -/
theorem compileEntries_startsWithAll (hkey : Text.startsWith name "$" = false)
    (harray : (c.fieldRef name).isArray = true) (hne : starts ≠ [])
    (hstarts : ∀ start ∈ starts, IsLiteral start) :
    c.compileEntries [(name, startsWithAll starts)] = .ok (.ofPredicate
      ((c.fieldRef name).containsAllMatches (starts.map startPattern))) := by
  let pattern (start : String) : Json := .obj [("$regex", .str (startPattern start))]
  have hpatterns : (starts.map pattern).filterMap FieldRef.anchored? = starts.map startPattern := by
    rw [List.filterMap_map, ← List.filterMap_eq_map]
    exact List.filterMap_congr fun start hstart => anchored?_startPattern (hstarts start hstart)
  have hoperator : (c.fieldRef name).compileOperator c.now (.containsAll (starts.map pattern))
      = .ok (.ofPredicate ((c.fieldRef name).containsAllMatches (starts.map startPattern))) := by
    simp [FieldRef.compileOperator, FieldRef.holdsAll, harray, hpatterns, hne]
  have hread : Constraint.ofJson (startsWithAll starts)
      = .ok (.operators [.containsAll (starts.map pattern)]) := rfl
  have hfield := Compiler.compileField_operator (Compiler.asksNothing_eq_false rfl) hread hoperator
  rw [Compiler.compileEntries_cons, Compiler.compileEntry, Combinator.ofKey?_eq_none hkey, hfield]
  rfl

/-- The predicate is never unknown on an array, in either form that a column of texts can have: each
start has to begin some item, its quotes doubled. -/
theorem truth_containsAllMatches (f : FieldRef) (texts : List String) (rest : Valuation)
    (hpath : f.isPath = false) (hne : starts ≠ []) (hstarts : ∀ start ∈ starts, IsLiteral start) :
    (f.containsAllMatches (starts.map startPattern)).truth
        (matchesOn f.name (keptTexts f texts) rest)
      = some (starts.all fun start => texts.any fun text =>
          Text.startsWith text (Text.double '\'' start)) := by
  let likePatterns := starts.map fun start =>
    String.ofList (start.toList.flatMap insideChar ++ ['%'])
  have hbound : Json.arr ((starts.map startPattern).map FieldRef.likePattern)
      = Json.ofStrings likePatterns := by
    rw [Json.ofStrings, List.map_map, List.map_map]
    exact congrArg Json.arr
      (List.map_congr_left fun start hstart => likePattern_startPattern (hstarts start hstart))
  have hcolumn : f.column = Sql.name f.name := if_neg (by simp [hpath])
  have hmatches : arrayContainsAllMatches texts likePatterns
      = starts.all fun start => texts.any fun text =>
          Text.startsWith text (Text.double '\'' start) := by
    rw [arrayContainsAllMatches, if_neg (by simp [likePatterns, hne]), List.all_map]
    refine List.all_congr rfl fun start => List.any_congr rfl ?_
    intro text
    exact (congrArg (like · text.toList) String.toList_ofList).trans (like_startPattern start text)
  rw [FieldRef.containsAllMatches, Predicate.truth_clause, hbound, hcolumn, keptTexts, ← hmatches]
  split_ifs
  -- a column of texts, and one with a document
  · exact matchesOn_eq (MatchTest.read?_texts f.name (read?_ofStrings likePatterns))
  · rw [matchesOn_eq (MatchTest.read?_document f.name (read?_ofStrings likePatterns)), MatchTest.on,
      texts?_texts]

/-! ## Quotes -/

/-- Without quotes nothing is doubled. -/
theorem double_eq_self (h : '\'' ∉ start.toList) : Text.double '\'' start = start := by
  have hchars : start.toList.flatMap outsideChar = start.toList.flatMap ([·]) :=
    List.flatMap_congr fun c hc => if_neg (ne_of_mem_of_not_mem hc h)
  rw [← String.ofList_toList (s := start), double_ofList, hchars, List.flatMap_singleton']

/-- Doubling the quotes of a text doubles how many there are. -/
theorem count_flatMap_outsideChar (s : List Char) :
    (s.flatMap outsideChar).count '\'' = 2 * s.count '\'' := by
  induction s with
  | nil => rfl
  | cons c s ih =>
    rw [List.flatMap_cons, List.count_append, ih, List.count_cons]
    by_cases hc : c = '\'' <;> simp [outsideChar, hc]
    omega

/-- A text that begins with another, its quotes doubled, has twice as many quotes at least. -/
theorem two_mul_count_le {text : String}
    (h : Text.startsWith text (Text.double '\'' start) = true) :
    2 * start.toList.count '\'' ≤ text.toList.count '\'' := by
  have hprefix : start.toList.flatMap outsideChar <+: text.toList := by
    rw [← String.ofList_toList (s := start), double_ofList, Text.startsWith,
      String.toList_ofList] at h
    exact List.isPrefixOf_iff_prefix.mp h
  rw [← count_flatMap_outsideChar]
  exact hprefix.sublist.count_le _

/-- Some starts begin no start if their quotes are doubled: those with the most quotes. -/
theorem exists_not_startsWith (h : ∃ start ∈ starts, '\'' ∈ start.toList) :
    ∃ start ∈ starts, ∀ text ∈ starts, Text.startsWith text (Text.double '\'' start) = false := by
  obtain ⟨quoted, hquoted, hmem⟩ := h
  obtain ⟨most, hmost, hmax⟩ :=
    starts.toFinset.exists_max_image (fun start => start.toList.count '\'')
      ⟨quoted, List.mem_toFinset.mpr hquoted⟩
  refine ⟨most, List.mem_toFinset.mp hmost, fun text htext => Bool.eq_false_iff.mpr ?_⟩
  intro hstarts
  have hquotes : 0 < quoted.toList.count '\'' := List.count_pos_iff.mpr hmem
  have hdoubled := two_mul_count_le hstarts
  have hfewer := hmax quoted (List.mem_toFinset.mpr hquoted)
  have hatMost := hmax text (List.mem_toFinset.mpr htext)
  omega

/-- A dotted name is of no column, so it is of no column with an array. -/
theorem isPath_of_isArray (h : (c.fieldRef name).isArray = true) :
    (c.fieldRef name).isPath = false := by
  cases hpath : Text.contains name "." with
  | false => exact hpath
  | true => simp [Compiler.fieldRef, FieldRef.isArray, hpath] at h

/-- **An array is selected if for each start it holds an item that begins with it, quotes doubled.
This is what was asked for, whatever is in the array, if and only if no start holds a quote.** -/
theorem truth_startsWithAll (c : Compiler) (name : String) (starts : List String)
    (hkey : Text.startsWith name "$" = false) (harray : (c.fieldRef name).isArray = true)
    (hne : starts ≠ []) (hstarts : ∀ start ∈ starts, IsLiteral start) :
    ∃ p, c.compileEntries [(name, startsWithAll starts)] = .ok (.ofPredicate p)
      ∧ (∀ texts rest, p.truth (matchesOn name (keptTexts (c.fieldRef name) texts) rest)
          = some (starts.all fun start => texts.any fun text =>
              Text.startsWith text (Text.double '\'' start)))
      ∧ ((∀ texts rest,
          p.truth (matchesOn name (keptTexts (c.fieldRef name) texts) rest) = some true
            ↔ ∀ start ∈ starts, ∃ text ∈ texts, Text.startsWith text start = true)
        ↔ ∀ start ∈ starts, '\'' ∉ start.toList) := by
  have htruth (texts : List String) (rest : Valuation) :
      ((c.fieldRef name).containsAllMatches (starts.map startPattern)).truth
          (matchesOn name (keptTexts (c.fieldRef name) texts) rest)
        = some (starts.all fun start => texts.any fun text =>
            Text.startsWith text (Text.double '\'' start)) :=
    truth_containsAllMatches (c.fieldRef name) texts rest (isPath_of_isArray harray) hne hstarts
  have hselected (texts : List String) (rest : Valuation) :
      ((c.fieldRef name).containsAllMatches (starts.map startPattern)).truth
          (matchesOn name (keptTexts (c.fieldRef name) texts) rest) = some true
        ↔ ∀ start ∈ starts, ∃ text ∈ texts,
            Text.startsWith text (Text.double '\'' start) = true := by
    rw [htruth texts rest, Option.some_inj, List.all_eq_true]
    simp only [List.any_eq_true]
  refine ⟨_, compileEntries_startsWithAll hkey harray hne hstarts, htruth, ?_, ?_⟩
  · intro hasked
    by_contra hquoted
    push Not at hquoted
    obtain ⟨start, hstart, hnone⟩ := exists_not_startsWith hquoted
    -- the starts themselves are an array that was asked for
    have hstarts : ∀ start ∈ starts, ∃ text ∈ starts, Text.startsWith text start = true :=
      fun start hstart => ⟨start, hstart, List.isPrefixOf_iff_prefix.mpr List.prefix_rfl⟩
    obtain ⟨text, htext, hbegins⟩ :=
      (hselected starts _).mp ((hasked starts fun _ => none).mpr hstarts) start hstart
    exact Bool.false_ne_true ((hnone text htext).symm.trans hbegins)
  · intro hplain texts rest
    rw [hselected texts rest]
    refine forall₂_congr ?_
    intro start hstart
    rw [double_eq_self (hplain start hstart)]

/-- Posts are found by the starts of two tags, with characters that mean something in a pattern. -/
theorem startsWithAll_percent :
    ∃ p, (posts (.arrayOf .string)).compileEntries [("tags", startsWithAll ["50%", "a_\\"])]
          = .ok (.ofPredicate p)
      ∧ p.truth (matchesOn "tags" (.texts ["50% off", "a_\\b"]) fun _ => none) = some true
      ∧ p.truth (matchesOn "tags" (.texts ["500 off", "a_\\b"]) fun _ => none) = some false := by
  have hstarts : ∀ start ∈ ["50%", "a_\\"], IsLiteral start := by
    unfold IsLiteral
    decide
  obtain ⟨p, hcompile, htruth, -⟩ := truth_startsWithAll (posts (.arrayOf .string)) "tags"
    ["50%", "a_\\"] rfl rfl (by decide) hstarts
  refine ⟨p, hcompile, (htruth ["50% off", "a_\\b"] fun _ => none).trans ?_,
    (htruth ["500 off", "a_\\b"] fun _ => none).trans ?_⟩
  · decide
  · decide

/-- A tag that begins as asked is not found if there is a quote in what is asked. -/
theorem startsWithAll_quote :
    ∃ p, (posts (.arrayOf .string)).compileEntries [("tags", startsWithAll ["it's"])]
          = .ok (.ofPredicate p)
      ∧ p.truth (matchesOn "tags" (.texts ["it's me"]) fun _ => none) = some false
      ∧ Text.startsWith "it's me" "it's" = true := by
  have hstarts : ∀ start ∈ ["it's"], IsLiteral start := by
    unfold IsLiteral
    decide
  refine ⟨_, compileEntries_startsWithAll rfl rfl (by decide) hstarts, ?_, by decide⟩
  exact (truth_containsAllMatches (textsField "tags") ["it's me"] _ rfl (by decide) hstarts).trans
    (by decide)

end ObjectStore.Query
