import ObjectStore.Access.Validate
import ObjectStore.Proofs.Access.StoredRow
import ObjectStore.Proofs.Query.Mention

/-!
# Columns that a query does not ask about

The names in the clauses of a compiled query are the columns of its fields, or the roots of their
paths (`exists_leaf_of_quoted`). A permission column is neither, unless the query names it as it is:
no path that a valid query may have starts with it (`name_eq_of_mem_pathQuotes`). So a filter that
is compiled from a query without the column cannot tell a row from the row with the column closed
(`holds_closed_iff`).
-/

namespace ObjectStore

open Sql Access

/-! ## The names that a query writes -/

/-- Copies of a column have nothing in them that the column has not. -/
theorem mem_of_mem_copies {column : List Quote} {n : Nat} {quote : Quote}
    (h : quote ∈ copies column n) : quote ∈ column := by
  obtain ⟨_, hlist, hquote⟩ := List.mem_flatten.mp h
  exact List.eq_of_mem_replicate hlist ▸ hquote

variable {f : FieldRef} {column : List Quote} {name : String}

/-- An operator writes no name but those of the column: patterns are literals. -/
theorem Operator.mem_of_name_mem_quotes {operator : Operator}
    (h : ⟨.name, name⟩ ∈ operator.quotes f column) : ⟨.name, name⟩ ∈ column := by
  rcases List.mem_append.mp h with hname | hname
  · exact mem_of_mem_copies hname
  · cases operator <;> simp [Operator.patternQuotes] at hname

theorem Constraint.mem_of_name_mem_quotes {constraint : Constraint}
    (h : ⟨.name, name⟩ ∈ constraint.quotes f column) : ⟨.name, name⟩ ∈ column := by
  cases constraint with
  | operators list =>
    obtain ⟨operator, _, hname⟩ := List.mem_flatMap.mp h
    exact operator.mem_of_name_mem_quotes hname
  | null | text _ | number _ | flag _ => exact h

namespace Compiler

variable {c : Compiler} {query : Object}

/-- A field writes no name but the column that it is, or the root of its path. -/
theorem mem_of_name_mem_fieldQuotes {field : String × Json}
    (h : ⟨.name, name⟩ ∈ c.fieldQuotes field) : ⟨.name, name⟩ ∈ pathQuotes field.1 := by
  unfold fieldQuotes at h
  split at h
  · exact (List.not_mem_nil h).elim
  · split at h
    next constraint _ => exact constraint.mem_of_name_mem_quotes h
    next => exact (List.not_mem_nil h).elim

/-- A name that a query writes is the column of a field, or the root of its path. -/
theorem exists_leaf_of_quoted (h : ⟨.name, name⟩ ∈ c.conditionQuotes query) :
    ∃ field ∈ leaves query, ⟨.name, name⟩ ∈ pathQuotes field.1 := by
  obtain ⟨field, hfield, hname⟩ := List.mem_flatMap.mp h
  exact ⟨field, hfield, mem_of_name_mem_fieldQuotes hname⟩

end Compiler

/-! ## Permission columns -/

namespace Access

theorem not_contains_dot_of_special {key : String} (h : key ∈ specialKeys) :
    Text.contains key "." = false := by
  have hall : ∀ special ∈ specialKeys, Text.contains special "." = false := by decide
  exact hall key h

/-- The path of a field name starts with a letter. -/
theorem exists_alpha_of_mem_pathQuotes {key : String} (hkey : isFieldName key = true)
    (h : ⟨.name, name⟩ ∈ pathQuotes key) :
    ∃ letter rest, name.toList = letter :: rest ∧ letter.isAlpha = true := by
  unfold isFieldName at hkey
  split at hkey
  next => cases hkey
  next letter rest hchars =>
    rw [Bool.and_eq_true] at hkey
    have hdot : letter ≠ '.' := by
      rintro rfl
      exact absurd hkey.1 (by decide)
    obtain ⟨part, parts, hsplit⟩ := Text.exists_splitChars_cons hdot rest
    have hroot : name = String.ofList (letter :: part) := by
      simpa [pathQuotes, Text.split, hchars, hsplit] using h
    exact ⟨letter, part, by rw [hroot, String.toList_ofList], hkey.1⟩

/-- The only query key that writes a permission column is the column. -/
theorem name_eq_of_mem_pathQuotes {key : String} (hname : IsPermission name)
    (hkey : isQueryKey key = true) (h : ⟨.name, name⟩ ∈ pathQuotes key) : key = name := by
  rw [isQueryKey, Bool.or_eq_true] at hkey
  rcases hkey with hkey | hkey
  · -- the path of a field starts with a letter, and the columns with an underscore
    obtain ⟨letter, rest, hchars, halpha⟩ := exists_alpha_of_mem_pathQuotes hkey h
    have hletter : letter = '_' := by
      rcases hname with rfl | rfl
      · exact (List.cons.inj (hchars.symm.trans rfl)).1
      · exact (List.cons.inj (hchars.symm.trans rfl)).1
    rw [hletter] at halpha
    exact absurd halpha (by decide)
  · rw [pathQuotes_of_not_contains (not_contains_dot_of_special (by simpa using hkey)),
      List.mem_singleton] at h
    exact (congrArg Quote.content h).symm

/-! ## Closing a column -/

/-- A filter holds alike where its clauses come to the same. -/
theorem holds_congr {filter : Filter} {v w : Valuation}
    (h : ∀ sql ∈ filter.predicate.toList.flatMap Predicate.clauses, v sql = w sql) :
    filter.Holds v ↔ filter.Holds w := by
  refine forall₂_congr ?_
  intro p hp
  rw [Predicate.truth_congr fun sql hsql => h sql (by simpa [hp] using hsql)]

/-- Closing a permission column makes no difference to a query that does not write it. -/
theorem holds_closed_iff {c : Compiler} {query : Object} {filter : Filter} {row : StoredRow}
    (hf : Filter.ofQuery c query = .ok filter)
    (h : ∀ field ∈ Compiler.leaves query, ⟨.name, name⟩ ∉ pathQuotes field.1) :
    filter.Holds (row.closed name).truth ↔ filter.Holds row.truth := by
  have hreads := Compiler.reads_condition hf
  refine holds_congr fun sql hsql => StoredRow.truth_congr rfl ?_
  intro column rest heq
  refine StoredRow.cell?_closed_of_ne ?_
  rintro rfl
  -- a clause that starts with the column would have it in quotes
  have hquote : ⟨.name, column⟩ ∈ c.conditionQuotes query := by
    rw [← hreads.quotes_eq]
    exact List.mem_flatMap.mpr ⟨sql, hsql, by simp [heq, Sql.quotes, Token.quote?]⟩
  obtain ⟨field, hfield, hmem⟩ := Compiler.exists_leaf_of_quoted hquote
  exact h field hfield hmem

end Access

end ObjectStore
