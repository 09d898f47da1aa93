import Mathlib.Data.List.Nodup
import ObjectStore.Access.Acl
import ObjectStore.Proofs.Query.Meaning
import ObjectStore.Proofs.Sql.ArrayLiteral
import ObjectStore.Statement.Basic

/-!
# Rows and their permission columns

A row is seen here through its two permission columns: `StoredRow.truth` computes what a clause on
one of them comes to, and leaves every other clause to the row. The two clauses that matter are
`"column" IS NULL` and `"column" && <literal>::text[]`, whose literal is read back as the engine
reads it.

What the restriction to some groups compiles to (`compileField_oneOf`) is true on exactly the rows
that are open to one of the groups (`truth_openTo`).

A statement on rows reaches those where its condition is true. One that changes a single row names
it by its id: it picks a row where the condition is true and changes whatever has the id of that
row. The id is the primary key of a table, so both come to the same (`reaches_iff`).
-/

namespace ObjectStore

/-- A row: its id, the groups that may read it and those that may write it, and what clauses on all
other columns come to. -/
structure StoredRow where
  id : String
  readers : Option (List String)
  writers : Option (List String)
  rest : Valuation

namespace StoredRow

/-- What a permission column holds. -/
def cell? (row : StoredRow) (column : String) : Option (Option (List String)) :=
  if column = readColumn then some row.readers
  else if column = writeColumn then some row.writers
  else none

/-- Whether a permission column holds nothing, or one of some groups. -/
def IsOpenTo (row : StoredRow) (column : String) (groups : List String) : Prop :=
  ∃ cell, row.cell? column = some cell ∧
    ∀ named, cell = some named → ∃ group ∈ groups, group ∈ named

/-- What a clause comes to on a row. -/
def truth (row : StoredRow) : Valuation
  | [.name column, .text " IS NULL"] =>
    match row.cell? column with
    | some cell => some cell.isNone
    | none => row.rest [.name column, .text " IS NULL"]
  | [.name column, .text " && ", .bind (.text (some literal)), .text "::text[]"] =>
    match row.cell? column, Sql.readArray literal with
    | some cell, some groups => cell.map fun named => groups.any fun group => named.contains group
    | _, _ => row.rest [.name column, .text " && ", .bind (.text (some literal)), .text "::text[]"]
  | sql => row.rest sql

/-- The row with a permission column that names no groups at all. -/
def closed (row : StoredRow) (column : String) : StoredRow :=
  { row with
    readers := if column = readColumn then some [] else row.readers
    writers := if column = writeColumn then some [] else row.writers }

/-- A clause comes to the same on two rows that differ in permission columns only, if these agree on
the column that the clause starts with. -/
theorem truth_congr {row other : StoredRow} {sql : Sql} (hrest : row.rest = other.rest)
    (h : ∀ column rest, sql = .name column :: rest → row.cell? column = other.cell? column) :
    row.truth sql = other.truth sql := by
  unfold truth
  split
  next column => rw [h column _ rfl, hrest]
  next column literal => rw [h column _ rfl, hrest]
  next => rw [hrest]

theorem cell?_closed_of_ne {row : StoredRow} {column other : String} (h : other ≠ column) :
    (row.closed column).cell? other = row.cell? other := by
  have hcolumn : ∀ {name}, other = name → column ≠ name := fun hname e => h (hname.trans e.symm)
  unfold cell? closed
  split
  next hread => rw [if_neg (hcolumn hread)]
  next =>
    split
    next hwrite => rw [if_neg (hcolumn hwrite)]
    next => rfl

theorem IsOpenTo.mono {row : StoredRow} {column : String} {groups wider : List String}
    (h : row.IsOpenTo column groups) (hsub : ∀ group ∈ groups, group ∈ wider) :
    row.IsOpenTo column wider := by
  obtain ⟨cell, hcell, hopen⟩ := h
  refine ⟨cell, hcell, ?_⟩
  intro named hn
  obtain ⟨group, hg, hnamed⟩ := hopen named hn
  exact ⟨group, hsub group hg, hnamed⟩

end StoredRow

/-! ## The restriction to some groups -/

namespace Access

/-- That a permission column holds nothing. -/
def absentClause (column : String) : Sql := Sql.name column ++ Sql.text " IS NULL"

/-- That a permission column names one of some groups. -/
def overlapClause (column : String) (groups : List String) : Sql :=
  Sql.name column ++ Sql.text " && " ++ FieldType.textArray (groups.map .str)

/-- That a permission column holds nothing, or names one of some groups. -/
def openTo (column : String) (groups : List String) : Predicate :=
  .any [.clause (absentClause column), .clause (overlapClause column groups)]

/-- Whether a column is one of the two permission columns. -/
def IsPermission (column : String) : Prop := column = readColumn ∨ column = writeColumn

variable {column : String} {groups : List String} {row : StoredRow}

theorem IsPermission.cell?_eq (h : IsPermission column) (row : StoredRow) :
    ∃ cell, row.cell? column = some cell := by
  rcases h with rfl | rfl
  · exact ⟨row.readers, rfl⟩
  · exact ⟨row.writers, rfl⟩

theorem not_isOpenTo_closed (h : IsPermission column) :
    ¬ (row.closed column).IsOpenTo column groups := by
  rintro ⟨cell, hcell, hopen⟩
  have hclosed : (row.closed column).cell? column = some (some []) := by
    rcases h with rfl | rfl <;> rfl
  obtain rfl := Option.some.inj (hclosed.symm.trans hcell)
  obtain ⟨_, _, hmem⟩ := hopen [] rfl
  exact List.not_mem_nil hmem

/-- The restriction to some groups is true on exactly the rows that are open to them. -/
theorem truth_openTo (h : IsPermission column) :
    (openTo column groups).truth row.truth = some true ↔ row.IsOpenTo column groups := by
  obtain ⟨cell, hcell⟩ := h.cell?_eq row
  have habsent : row.truth (absentClause column) = some cell.isNone := by
    simp [absentClause, Sql.name, Sql.text, StoredRow.truth, hcell]
  -- the literal that is bound is read back as the groups
  have hoverlap : row.truth (overlapClause column groups)
      = cell.map fun named => groups.any fun group => named.contains group := by
    have htexts := Json.map_textForm_str groups
    simp [overlapClause, FieldType.textArray, Sql.name, Sql.text, Sql.bindText, Sql.bind, htexts,
      StoredRow.truth, hcell, Sql.readArray_arrayLiteral]
  rw [openTo, Predicate.truth_any_eq_true]
  simp only [List.mem_cons, List.not_mem_nil, or_false, exists_eq_or_imp, exists_eq_left,
    Predicate.truth_clause, habsent, hoverlap, StoredRow.IsOpenTo, hcell, Option.some.injEq]
  cases cell with
  | none => simp
  | some named => simp

/-! ## Compiling the restriction -/

/-- The stored form of a class has both permission columns, as lists of texts. -/
theorem field?_forStorage (s : Schema) (h : IsPermission column) :
    s.forStorage.field? column = some (.arrayOf .string) := by
  rcases h with rfl | rfl
  · rw [Schema.field?, Schema.forStorage, Dict.get?_insert_of_ne _ _ (by decide),
      Dict.get?_insert_self]
  · rw [Schema.field?, Schema.forStorage, Dict.get?_insert_self]

theorem fieldRef_permission (s : Schema) (ignoreCase : Bool) (now : Timestamp)
    (h : IsPermission column) :
    (Compiler.ofSchema s ignoreCase now).fieldRef column
      = ⟨column, some (.arrayOf .string), false⟩ := by
  have hpath : Text.contains column "." = false := by rcases h with rfl | rfl <;> rfl
  simp [Compiler.fieldRef, Compiler.ofSchema, hpath, field?_forStorage s h]

/-- Texts with null before them, looked for in a list of texts, are a restriction to these texts. -/
theorem arrayIsIn_texts (hne : groups ≠ []) :
    FieldRef.arrayIsIn ⟨column, some (.arrayOf .string), false⟩ (.null :: groups.map .str)
      = openTo column groups := by
  have hmembers : (Json.null :: groups.map Json.str).filter (fun v => !v.isNull)
      = groups.map Json.str := by
    rw [List.filter_cons_of_neg (by simp [Json.isNull]), List.filter_eq_self]
    intro value hv
    obtain ⟨s, _, rfl⟩ := List.mem_map.mp hv
    rfl
  have hstrings : FieldRef.isStringArray ⟨column, some (.arrayOf .string), false⟩ = true := rfl
  have hempty : (groups.map Json.str).isEmpty = false := by simp [hne]
  simp only [FieldRef.arrayIsIn, hstrings, if_true, hmembers, hempty]
  rfl

/-- The constraint on a permission column is looked for in a list of texts. -/
theorem compileEntry_oneOf_eq (s : Schema) (ignoreCase : Bool) (now : Timestamp)
    (h : IsPermission column) (groups : List String) :
    (Compiler.ofSchema s ignoreCase now).compileEntry (column, oneOf groups)
      = .ok (.ofPredicate (FieldRef.arrayIsIn ⟨column, some (.arrayOf .string), false⟩
        (.null :: groups.eraseDups.map .str))) := by
  have hkey : Combinator.ofKey? column = none := by rcases h with rfl | rfl <;> rfl
  have hasks : (Compiler.ofSchema s ignoreCase now).asksNothing column (oneOf groups) = false := by
    have hroot : Compiler.root column = column := by rcases h with rfl | rfl <;> rfl
    have hfield : s.forStorage.hasField column = true := by
      rw [Schema.hasField, Dict.contains, ← Schema.field?, field?_forStorage s h]
      rfl
    simp [Compiler.asksNothing, Compiler.ofSchema, hroot, hfield]
  have hread : Constraint.ofJson (oneOf groups)
      = .ok (.operators [.isIn (.null :: groups.eraseDups.map .str)]) := rfl
  -- none of the values is a list itself
  have hflat : FieldRef.flatten (.null :: groups.eraseDups.map .str)
      = .null :: groups.eraseDups.map .str := by
    rw [FieldRef.flatten, List.flatMap_cons, List.flatMap_map, List.map_eq_flatMap]
    rfl
  rw [Compiler.compileEntry, hkey]
  refine Compiler.compileField_operator hasks hread ?_
  rw [fieldRef_permission s ignoreCase now h]
  simp only [FieldRef.compileOperator, FieldRef.isIn, hflat]
  rfl

/-- The constraint on a permission column compiles to the restriction to its groups. -/
theorem compileEntry_oneOf (s : Schema) (ignoreCase : Bool) (now : Timestamp)
    (h : IsPermission column) (hne : groups.eraseDups ≠ []) :
    (Compiler.ofSchema s ignoreCase now).compileEntry (column, oneOf groups)
      = .ok (.ofPredicate (openTo column groups.eraseDups)) := by
  rw [compileEntry_oneOf_eq s ignoreCase now h, arrayIsIn_texts hne]

end Access

/-! ## Which rows a statement reaches -/

/-- The rows of a table, each with an id of its own. -/
structure Table where
  rows : List StoredRow
  distinct : (rows.map StoredRow.id).Nodup

namespace RowStatement

/-- Whether a statement may read, change or delete a row of a table. -/
def Reaches (r : RowStatement) (table : Table) (row : StoredRow) : Prop :=
  row ∈ table.rows ∧ match r.action with
    | .updateOne _ => ∃ picked ∈ table.rows, r.filter.Holds picked.truth ∧ picked.id = row.id
    | _ => r.filter.Holds row.truth

/-- A statement reaches the rows on which its condition is true. -/
theorem reaches_iff {r : RowStatement} {table : Table} {row : StoredRow} :
    r.Reaches table row ↔ row ∈ table.rows ∧ r.filter.Holds row.truth := by
  unfold Reaches
  refine and_congr_right ?_
  intro hrow
  split
  · constructor
    · rintro ⟨picked, hpicked, hholds, hid⟩
      rwa [← List.inj_on_of_nodup_map table.distinct hpicked hrow hid]
    · exact fun hholds => ⟨row, hrow, hholds, rfl⟩
  · rfl

end RowStatement

end ObjectStore
