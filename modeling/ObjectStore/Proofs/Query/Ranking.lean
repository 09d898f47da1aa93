import ObjectStore.Proofs.Query.Operators
import ObjectStore.Proofs.Sql.ReadBack

/-!
# What a rank searches

A full-text search is written twice: as a condition of the filter, and as the rank of a row by that
search. Both are spelled alike (`WrittenSearch`), with the same language and the same term. The
condition searches the column of its field, which for a path is the text at its end; the rank puts
the field in quotes as one name. So the rank is that of the search that filters the rows just if
the field is no path (`rank_searches_iff`). A field that the compiler skips is not searched at all.
-/

namespace ObjectStore

/-- A full-text search as it is written: the document that is searched, and what is bound for its
language, for the language of the term and for the term. -/
structure WrittenSearch where
  document : Sql
  language : Param
  termLanguage : Param
  term : Param

namespace WrittenSearch

/-- A search between three fixed texts. -/
def spelled (s : WrittenSearch) (opening middle closing : String) : Sql :=
  Sql.text opening ++ Sql.bind s.language ++ Sql.text "::regconfig, " ++ s.document
    ++ Sql.text middle ++ Sql.bind s.termLanguage ++ Sql.text "::regconfig, " ++ Sql.bind s.term
    ++ Sql.text closing

/-- The condition that the search finds something. -/
def condition (s : WrittenSearch) : Sql := s.spelled "to_tsvector(" ") @@ to_tsquery(" ")"

/-- The rank of what the search finds, as a column. -/
def rank (s : WrittenSearch) : Sql :=
  s.spelled "ts_rank_cd(to_tsvector(" "), to_tsquery(" "), 32) AS \"score\""

/-- A search in a document. -/
def of (document : Sql) (search : TextSearch) : WrittenSearch :=
  ⟨document, .text (some search.language), .text (some search.language), .text (some search.term)⟩

/-- Two searches bind the same values. -/
def BindSame (s t : WrittenSearch) : Prop :=
  s.language = t.language ∧ s.termLanguage = t.termLanguage ∧ s.term = t.term

variable {s t : WrittenSearch} {opening middle closing : String} {document : Sql}

theorem spelled_inj (h : s.spelled opening middle closing = t.spelled opening middle closing) :
    s = t := by
  obtain ⟨document, language, termLanguage, term⟩ := s
  obtain ⟨document', language', termLanguage', term'⟩ := t
  simp only [spelled, Sql.text, Sql.bind, List.append_assoc, List.cons_append, List.nil_append,
    List.cons.injEq, true_and, Token.bind.injEq] at h
  -- what follows the documents is as long on both sides, so they end at the same place
  obtain ⟨rfl, h⟩ := h
  obtain ⟨rfl, hafter⟩ := List.append_inj' h rfl
  simp only [List.cons.injEq, Token.bind.injEq, true_and, and_true] at hafter
  obtain ⟨rfl, rfl⟩ := hafter
  rfl

theorem condition_inj (h : s.condition = t.condition) : s = t := spelled_inj h

theorem rank_inj (h : s.rank = t.rank) : s = t := spelled_inj h

end WrittenSearch

/-! ## Paths and names -/

/-- A text is cut where the separator occurs. -/
theorem Text.exists_splitChars_of_mem {c : Char} {s : List Char} (h : c ∈ s) :
    ∃ first next rest, splitChars c s = first :: next :: rest := by
  induction s with
  | nil => exact absurd h List.not_mem_nil
  | cons d rest ih =>
    rw [splitChars]
    split
    next =>
      obtain ⟨next, others, hrest⟩ := List.exists_cons_of_ne_nil (splitChars_ne_nil c rest)
      exact ⟨[], next, others, by rw [hrest]⟩
    next hne =>
      obtain ⟨first, next, others, hrest⟩ :=
        ih ((List.mem_cons.mp h).resolve_left (Ne.symm hne))
      exact ⟨d :: first, next, others, by rw [hrest]⟩

/-- A name with dots has a part behind its root. -/
theorem Sql.exists_literal_of_contains {dotted : String} (h : Text.contains dotted "." = true) :
    ∃ part, ⟨.literal, part⟩ ∈ Sql.pathQuotes dotted := by
  have hdot : '.' ∈ dotted.toList := Text.occursIn_singleton.mp h
  obtain ⟨root, part, rest, hsplit⟩ := Text.exists_splitChars_of_mem hdot
  refine ⟨String.ofList part, ?_⟩
  simp [Sql.pathQuotes, Text.split, hsplit]

/-- The text of a path with dots is not that of the name: a reader finds a literal in it. -/
theorem Sql.render_name_ne_path {dotted : String} (h : Text.contains dotted "." = true)
    (asText : Bool) (index : Nat) :
    (Sql.name dotted).render index ≠ (Sql.path dotted asText).render index := by
  intro heq
  have hname := (Reads.name dotted).readBack (Mark.spell_number index _)
  have hpath := (reads_path dotted asText).readBack (Mark.spell_number index _)
  have hlexemes := Option.some.inj (hname.lexed.symm.trans
    ((congrArg Sql.lex heq).trans hpath.lexed))
  obtain ⟨part, hpart⟩ := exists_literal_of_contains h
  rw [← hpath.quotes] at hpart
  obtain ⟨mark, hmark, hquote⟩ := List.mem_filterMap.mp hpart
  obtain rfl : mark = .literal part := by cases mark <;> simp_all [Mark.quote?]
  have hliteral : Lexeme.quoted .literal part.toList ∈ [Lexeme.quoted .name dotted.toList] := by
    rw [show [Lexeme.quoted .name dotted.toList] = _ from hlexemes]
    exact List.mem_flatMap.mpr ⟨_, hmark, List.mem_singleton_self _⟩
  exact absurd hliteral (by simp)

/-! ## The field that is searched -/

/-- The first field with a full-text search, outside of the branches of a query. -/
def searched? (query : Object) : Option (String × Json) :=
  query.find? fun entry => (entry.2.get? "$text").isSome

namespace Compiler

open Result

variable {c : Compiler} {query fields : Object} {name : String} {value : Json} {filter : Filter}
  {own : Compiled} {operators : List Operator} {search : TextSearch}

/-- A search is the condition that the compiler writes for the `$text` of a field. -/
def Searches (c : Compiler) (name : String) (value : Json) (s : WrittenSearch) : Prop :=
  ∃ own operators search, c.compileField name value = .ok own
    ∧ Constraint.ofJson value = .ok (.operators operators) ∧ .matchesText search ∈ operators
    ∧ (c.fieldRef name).Expresses c.now (.matchesText search) (.clause s.condition)
    ∧ .clause s.condition ∈ own.predicates

/-- A constraint with a full-text search is read to operators, the search among them. -/
theorem exists_search (hvalue : (value.get? "$text").isSome = true) {constraint : Constraint}
    (h : Constraint.ofJson value = .ok constraint) :
    ∃ operators search, constraint = .operators operators
      ∧ operators.findSome? Operator.search? = some search
      ∧ .matchesText search ∈ operators := by
  cases value with
  | obj fields =>
    obtain ⟨payload, hpayload⟩ := Option.isSome_iff_exists.mp hvalue
    obtain ⟨operators, hoperators, h⟩ := bind_eq_ok.mp h
    obtain rfl := pure_eq_ok.mp h
    obtain ⟨found, hfound, hflatten⟩ := bind_eq_ok.mp hoperators
    obtain rfl := pure_eq_ok.mp hflatten
    -- the reader of searches finds one, and what the look-up finds first is one as well
    obtain ⟨texts, htexts, hread⟩ := exists_right_of_mem (mapM_eq_ok.mp hfound)
      (show Operator.readText ∈ Operator.readers by simp [Operator.readers])
    have hpayload : Dict.get? fields "$text" = some payload := hpayload
    simp only [Operator.readText, hpayload] at hread
    obtain ⟨search, -, hread⟩ := bind_eq_ok.mp hread
    obtain rfl := pure_eq_ok.mp hread
    have hmem : .matchesText search ∈ found.flatten :=
      List.mem_flatten.mpr ⟨_, htexts, List.mem_singleton_self _⟩
    obtain ⟨first, hfirst⟩ := Option.isSome_iff_exists.mp
      (List.findSome?_isSome_iff.mpr ⟨_, hmem, rfl⟩ :
        (found.flatten.findSome? Operator.search?).isSome)
    obtain ⟨operator, hoperator, hsearch⟩ := List.exists_of_findSome?_eq_some hfirst
    obtain rfl : operator = .matchesText first := by
      cases operator <;> simp_all [Operator.search?]
    exact ⟨_, first, rfl, hfirst, hoperator⟩
  | _ => exact absurd hvalue (by simp [Json.get?])

/-- A search by the field that is searched first. -/
theorem textRank?_of_searched? (hfirst : searched? query = some (name, value))
    (hread : Constraint.ofJson value = .ok (.operators operators))
    (hfound : operators.findSome? Operator.search? = some search) :
    textRank? query = .ok (some (search.rank name)) := by
  induction query with
  | nil => cases hfirst
  | cons entry rest ih =>
    obtain ⟨key, constraint⟩ := entry
    rw [searched?, List.find?_cons] at hfirst
    unfold textRank?
    cases htext : constraint.get? "$text" with
    | none =>
      simp only [htext, Option.isSome_none] at hfirst
      exact ih hfirst
    | some payload =>
      simp only [htext, Option.isSome_some, Option.some.injEq, Prod.mk.injEq] at hfirst
      obtain ⟨rfl, rfl⟩ := hfirst
      simp only [Option.isNone_some, Bool.false_eq_true, if_false, hread, bind, Except.bind, hfound]
      rfl

/-- The condition of a query has that of the field that is searched first. -/
theorem exists_own_of_searched? (hfilter : Filter.ofQuery c query = .ok filter)
    (hfirst : searched? query = some (name, value)) :
    ∃ earlier own later, c.compileField name value = .ok own
      ∧ filter.predicate = Predicate.all? (earlier ++ own.predicates ++ later) := by
  obtain ⟨htext, before, after, rfl, -⟩ := List.find?_eq_some_iff_append.mp hfirst
  obtain ⟨compiled, hcompiled, hf⟩ := bind_eq_ok.mp hfilter
  obtain rfl := pure_eq_ok.mp hf
  obtain ⟨earlier, _, -, hrest, rfl⟩ := compileEntries_append_eq_ok.mp hcompiled
  rw [compileEntries_cons] at hrest
  obtain ⟨own, hown, hrest⟩ := bind_eq_ok.mp hrest
  obtain ⟨later, -, hrest⟩ := bind_eq_ok.mp hrest
  obtain rfl := pure_eq_ok.mp hrest
  refine ⟨earlier.predicates, own, later.predicates, ?_, by simp⟩
  cases hkey : Combinator.ofKey? name with
  | none => simpa only [compileEntry, hkey] using hown
  | some combinator =>
    -- a combinator joins a list of branches, which holds no search of its own
    simp only [compileEntry, hkey] at hown
    obtain ⟨branches, _, rfl, -⟩ := compileClause_eq_ok.mp hown
    exact absurd htext (by simp [Json.get?])

/-- The compiler searches the column of the field. -/
theorem Searches.exists_eq_of {s : WrittenSearch} (h : c.Searches name value s) :
    ∃ search, s = .of (c.fieldRef name).column search := by
  obtain ⟨_, _, search, -, -, -, ⟨sorts, hcompiled⟩, -⟩ := h
  refine ⟨search, WrittenSearch.condition_inj ?_⟩
  have hparts := Compiled.mk.inj (Except.ok.inj hcompiled)
  exact (Predicate.clause.inj (List.cons.inj hparts.1).1).symm

/-- A field that asks for something is searched for what the rank is read from. -/
theorem exists_searches (hfield : c.compileField name value = .ok own)
    (hfirst : searched? query = some (name, value)) (hasks : c.asksNothing name value = false) :
    ∃ search, textRank? query = .ok (some (search.rank name))
      ∧ c.Searches name value (.of (c.fieldRef name).column search) := by
  have htext : (value.get? "$text").isSome = true := (List.find?_eq_some_iff_append.mp hfirst).1
  rcases compileField_eq_ok.mp hfield with ⟨hskipped, -⟩ | ⟨-, -, constraint, hread, -⟩
  · exact absurd hskipped (by simp [hasks])
  obtain ⟨operators, search, rfl, hfound, hmem⟩ := exists_search htext hread
  refine ⟨search, textRank?_of_searched? hfirst hread hfound, own, operators, search, hfield, hread,
    hmem, ⟨[], rfl⟩, ?_⟩
  obtain ⟨-, parts, rfl, hparts⟩ := compileField_operators hasks hread hfield
  obtain ⟨part, hpart, hcompiled⟩ := exists_right_of_mem hparts hmem
  obtain rfl := Except.ok.inj hcompiled
  exact List.mem_flatMap.mpr ⟨_, hpart, List.mem_singleton_self _⟩

/-- A field that is skipped is not searched. -/
theorem Searches.asksNothing_eq_false {s : WrittenSearch} (h : c.Searches name value s) :
    c.asksNothing name value = false := by
  obtain ⟨own, _, _, hfield, -, -, -, hmem⟩ := h
  rcases compileField_eq_ok.mp hfield with ⟨-, rfl⟩ | ⟨hasks, -⟩
  · exact absurd hmem List.not_mem_nil
  · exact hasks

/-- The rank of a query ranks by the search that the compiler writes for a field: it binds the same
values, and the documents have the same text. -/
def RanksSearch (c : Compiler) (query : Object) (name : String) (value : Json) : Prop :=
  ∃ ranked searched : WrittenSearch, textRank? query = .ok (some ranked.rank)
    ∧ c.Searches name value searched ∧ ranked.BindSame searched
    ∧ ∀ index, ranked.document.render index = searched.document.render index

/-- A path is not ranked by its search. -/
theorem RanksSearch.not_contains (h : c.RanksSearch query name value)
    (hfirst : searched? query = some (name, value)) : Text.contains name "." = false := by
  obtain ⟨ranked, searched, hrank, hsearches, -, hdocument⟩ := h
  obtain ⟨own, _, _, hfield, -⟩ := id hsearches
  obtain ⟨search, hother, -⟩ := exists_searches hfield hfirst hsearches.asksNothing_eq_false
  obtain ⟨_, rfl⟩ := hsearches.exists_eq_of
  obtain rfl : ranked = .of (Sql.name name) search :=
    WrittenSearch.rank_inj (Option.some.inj (Except.ok.inj (hrank.symm.trans hother)))
  -- the rank is read from the name as it stands, and the condition from the path
  refine Bool.eq_false_iff.mpr ?_
  intro hpath
  have hcolumn : (c.fieldRef name).column = Sql.path name true := if_pos hpath
  exact Sql.render_name_ne_path hpath true 1 (hcolumn ▸ hdocument 1)

/-- For every query that compiles and the first field with a full-text search outside of its
branches: what the field asks is part of the condition, and unless the compiler skips the field, the
rank and the condition of the search bind the same language and the same term. They search the same
document if and only if the field is no path and is not skipped. -/
theorem rank_searches_iff (hfilter : Filter.ofQuery c query = .ok filter)
    (hfirst : searched? query = some (name, value)) :
    (∃ earlier own later, c.compileField name value = .ok own
      ∧ filter.predicate = Predicate.all? (earlier ++ own.predicates ++ later))
    ∧ (c.asksNothing name value = false → ∃ ranked searched : WrittenSearch,
      textRank? query = .ok (some ranked.rank) ∧ c.Searches name value searched
        ∧ ranked.BindSame searched)
    ∧ (c.RanksSearch query name value
      ↔ Text.contains name "." = false ∧ c.asksNothing name value = false) := by
  obtain ⟨earlier, own, later, hfield, hpredicate⟩ := exists_own_of_searched? hfilter hfirst
  refine ⟨⟨earlier, own, later, hfield, hpredicate⟩, ?_, ?_, ?_⟩
  · intro hasks
    obtain ⟨search, hrank, hsearches⟩ := exists_searches hfield hfirst hasks
    exact ⟨.of (Sql.name name) search, _, hrank, hsearches, rfl, rfl, rfl⟩
  · intro h
    obtain ⟨_, _, -, hsearches, -⟩ := id h
    exact ⟨h.not_contains hfirst, hsearches.asksNothing_eq_false⟩
  · rintro ⟨hname, hasks⟩
    obtain ⟨search, hrank, hsearches⟩ := exists_searches hfield hfirst hasks
    have hcolumn : (c.fieldRef name).column = Sql.name name := if_neg (by simp [fieldRef, hname])
    exact ⟨.of (Sql.name name) search, _, hrank, hsearches, ⟨rfl, rfl, rfl⟩,
      fun index => congrArg (Sql.render index) hcolumn.symm⟩

/-- Recipes with a text of their own and other data. -/
def recipes : Compiler :=
  .ofSchema (((Schema.ofClass "Recipe").withField "text" .string).withField "data" .object) false
    ⟨0, 0⟩

/-- To hold a word in a language. -/
def holdsWord (language term : String) : Json :=
  .obj [("$text", .obj [("$search", .obj [("$language", .str language), ("$term", .str term)])])]

/-- Of two searches, recipes are ranked by the first one. -/
theorem text_ranked :
    let query : Object :=
      [("text", holdsWord "french" "sel"), ("title", holdsWord "english" "salt")]
    (∃ filter, Filter.ofQuery recipes query = .ok filter)
      ∧ searched? query = some ("text", holdsWord "french" "sel")
      ∧ Text.contains "text" "." = false
      ∧ recipes.asksNothing "text" (holdsWord "french" "sel") = false
      ∧ recipes.RanksSearch query "text" (holdsWord "french" "sel") := by
  intro query
  obtain ⟨filter, hfilter⟩ : ∃ filter, Filter.ofQuery recipes query = .ok filter := ⟨_, rfl⟩
  have hfirst : searched? query = some ("text", holdsWord "french" "sel") := rfl
  exact ⟨⟨filter, hfilter⟩, hfirst, rfl, rfl, (rank_searches_iff hfilter hfirst).2.2.mpr ⟨rfl, rfl⟩⟩

/-- Recipes that are searched by a text in their data are ranked by a column that is not there. -/
theorem data_ranked_elsewhere :
    let query : Object := [("data.text", holdsWord "english" "salt")]
    ∃ filter rank, Filter.ofQuery recipes query = .ok filter
      ∧ searched? query = some ("data.text", holdsWord "english" "salt")
      ∧ filter.sql.render 1
        = "to_tsvector($1::regconfig, \"data\"->>'text') @@ to_tsquery($2::regconfig, $3)"
      ∧ textRank? query = .ok (some rank)
      ∧ rank.render 4 = "ts_rank_cd(to_tsvector($4::regconfig, \"data.text\"), "
        ++ "to_tsquery($5::regconfig, $6), 32) AS \"score\""
      ∧ ¬ recipes.RanksSearch query "data.text" (holdsWord "english" "salt") := by
  intro query
  refine ⟨_, _, rfl, rfl, by decide +kernel, rfl, by decide +kernel, ?_⟩
  intro h
  exact absurd (h.not_contains rfl) (by decide)

end Compiler

end ObjectStore
