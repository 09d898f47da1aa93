import ObjectStore.Proofs.Sql.ReadBack
import ObjectStore.Statement.Basic

/-!
# Statements as fragments

A statement on rows numbers its parts one by one, in an order that is not that of the text. As a
fragment (`inline`) it has each value where the text has its placeholder, and `fill_marks` says that
the numbers are right: each placeholder stands for the value that belongs there.

The condition of a statement takes the first numbers, then come those of the sort clauses of its
filter, and then those of what else it binds. So a statement that writes the sort clauses out has
all numbers in its text, each of them once (`perm_find`). Other statements bind the values of the
sort clauses all the same, and these have no placeholders (`perm_unordered`). So the numbers are all
there just if the order is written out or binds nothing (`placeholders_perm_iff`).
-/

namespace ObjectStore

open Sql

/-- The parts of an action that are not numbered one after another bind no values. -/
def RowAction.IsBare : RowAction → Prop
  | .find _ order _ _ => ∀ clause ∈ order, clause.params = []
  | .distinct source => source.params = []
  | .count | .update _ | .updateOne _ | .delete => True

namespace RowStatement

variable {filter : Filter} {order : List Sql}

/-- The condition of a statement as a fragment. -/
def whereSql (filter : Filter) : Sql :=
  if filter.predicate.isSome then Sql.text " WHERE " ++ filter.sql else []

/-- The clauses that the rows are ordered by. -/
def orderClauses (filter : Filter) (order : List Sql) : List Sql :=
  if filter.sorts.isEmpty then order else filter.sorts

/-- The order of the rows as a fragment. -/
def orderSql (filter : Filter) (order : List Sql) : Sql :=
  if (orderClauses filter order).isEmpty then []
  else Sql.text " ORDER BY " ++ Sql.join ", " (orderClauses filter order)

/-- What a statement that changes rows gives back, as a fragment. -/
def returningSql (table : String) : Sql :=
  Sql.text " RETURNING row_to_json(" ++ Sql.name table ++ Sql.text ") AS \"_row\""

/-- A statement as a fragment, with each value where it belongs. -/
def inline (s : RowStatement) : Sql :=
  match s.action with
  | .find columns order limit offset =>
    Sql.text "SELECT row_to_json(t) AS \"_row\" FROM (SELECT " ++ columns ++ Sql.text " FROM "
      ++ Sql.name s.table ++ whereSql s.filter ++ orderSql s.filter order
      ++ rowCount " LIMIT " limit ++ rowCount " OFFSET " offset ++ Sql.text ") AS t"
  | .count =>
    Sql.text "SELECT count(*) AS count FROM " ++ Sql.name s.table ++ whereSql s.filter
  | .distinct source =>
    Sql.text "SELECT DISTINCT to_jsonb(d.value) AS \"_value\" FROM (SELECT " ++ source
      ++ Sql.text " AS value FROM " ++ Sql.name s.table ++ whereSql s.filter ++ Sql.text ") AS d"
  | .update assignments =>
    Sql.text "UPDATE " ++ Sql.name s.table ++ Sql.text " SET " ++ assignments ++ whereSql s.filter
      ++ returningSql s.table
  | .updateOne assignments =>
    Sql.text "UPDATE " ++ Sql.name s.table ++ Sql.text " SET " ++ assignments
      ++ Sql.text " WHERE " ++ Sql.name objectIdField ++ Sql.text " IN (SELECT "
      ++ Sql.name objectIdField ++ Sql.text " FROM " ++ Sql.name s.table ++ whereSql s.filter
      ++ Sql.text " LIMIT 1)" ++ returningSql s.table
  | .delete => Sql.text "DELETE FROM " ++ Sql.name s.table ++ whereSql s.filter

/-! ## Values in place of their placeholders -/

variable {params : List Param}

/-- With the values in place, the condition is its fragment. -/
theorem fill_whereMarks (h : Mark.Carries params 1 filter.sql) :
    (whereMarks filter).map (Mark.fill params) = (whereSql filter).map some := by
  unfold whereMarks whereSql
  split
  · have hfilter := Mark.fill_number h
    rw [List.map_cons, Filter.marks, hfilter]
    rfl
  · rfl

/-- Parts with commas between them become fragments with commas between them. -/
theorem fill_list {parts : List (List Mark)} {sqls : List Sql}
    (h : List.Forall₂ (fun part sql => part.map (Mark.fill params) = sql.map some) parts sqls) :
    (list parts).map (Mark.fill params) = (Sql.join ", " sqls).map some := by
  induction h with
  | nil => rfl
  | cons hpart hrest ih =>
    cases hrest with
    | nil => exact hpart
    | cons hnext hrest =>
      rw [list, Sql.join, List.map_append, List.map_cons, hpart, ih]
      simp [Sql.text, Mark.fill]

/-- Fragments that are numbered one after another become themselves with their values in place. -/
theorem fill_numberEach {index : Nat} {sqls : List Sql}
    (h : Mark.Carries params index sqls.flatten) :
    List.Forall₂ (fun part sql => part.map (Mark.fill params) = sql.map some)
      (Filter.numberEach index sqls) sqls := by
  induction sqls generalizing index with
  | nil => exact .nil
  | cons sql rest ih =>
    rw [List.flatten_cons] at h
    exact .cons (Mark.fill_number h.left) (ih h.right)

/-- A fragment without values may be numbered anyhow. -/
theorem fill_number_bare {sql : Sql} (h : sql.params = []) (index : Nat) :
    (sql.number index).map (Mark.fill params) = sql.map some := by
  induction sql generalizing index with
  | nil => rfl
  | cons token rest ih =>
    cases token with
    | bind value => simp [Sql.params, Token.param?] at h
    | text s | name s | literal s =>
      have hrest : Sql.params rest = [] := by simpa [Sql.params, Token.param?] using h
      rw [Sql.number, List.map_cons, ih hrest]
      rfl

/-- With the values in place, an order by some parts is the order by their fragments. -/
theorem fill_orderBy {parts : List (List Mark)} {sqls : List Sql}
    (h : List.Forall₂ (fun part sql => part.map (Mark.fill params) = sql.map some) parts sqls) :
    (if parts.isEmpty then [] else .text " ORDER BY " :: list parts).map (Mark.fill params)
      = (if sqls.isEmpty then [] else Sql.text " ORDER BY " ++ Sql.join ", " sqls).map some := by
  have hlist := fill_list h
  cases h with
  | nil => rfl
  | cons hpart hrest =>
    simp only [List.isEmpty_cons, Bool.false_eq_true, if_false, List.map_cons, hlist]
    rfl

/-- With the values in place, the order is its fragment: that of the filter, or a given one that
binds nothing. -/
theorem fill_orderMarks
    (hsorts : Mark.Carries params (1 + filter.sql.bindCount) filter.sorts.flatten)
    (horder : ∀ clause ∈ order, clause.params = []) :
    (orderMarks filter order).map (Mark.fill params) = (orderSql filter order).map some := by
  refine fill_orderBy ?_
  unfold orderClauses
  split
  · exact List.forall₂_map_left_iff.mpr
      (List.forall₂_same.mpr fun clause hc => fill_number_bare (horder clause hc) 1)
  · exact fill_numberEach hsorts

/-- With the values in place, a statement is its fragment. -/
theorem fill_marks (s : RowStatement) (h : s.action.IsBare) :
    s.marks.map (Mark.fill s.params) = s.inline.map some := by
  have hfilter : Mark.Carries s.params 1 (s.filter.sql ++ s.filter.sorts.flatten) :=
    ⟨[], s.ownSql.params, rfl, rfl⟩
  -- what else the statement binds is numbered after everything in its filter
  have hown : Mark.Carries s.params (s.filter.next 1) s.ownSql :=
    ⟨s.filter.params, [], by simp [RowStatement.params], Nat.add_comm 1 _⟩
  have hwhere := fill_whereMarks hfilter.left
  have hsorts := hfilter.right
  unfold marks inline
  cases haction : s.action with
  | find columns order limit offset =>
    rw [haction] at h
    -- the limit and the offset follow the columns in number, though not in the text
    have hown : Mark.Carries s.params (s.filter.next 1)
        (columns ++ (rowCount " LIMIT " limit ++ rowCount " OFFSET " offset)) := by
      simpa [ownSql, haction, boundSql] using hown
    have hcolumns := Mark.fill_number hown.left
    have hrest := Mark.fill_number hown.right
    have horder := fill_orderMarks hsorts h
    simp [findMarks, hwhere, hcolumns, hrest, horder, Mark.fill, Sql.text, Sql.name]
  | count => simp [hwhere, Mark.fill, Sql.text, Sql.name]
  | distinct source =>
    rw [haction] at h
    simp [hwhere, fill_number_bare h, Mark.fill, Sql.text, Sql.name]
  | update assignments =>
    have hown : Mark.Carries s.params (s.filter.next 1) assignments := by
      simpa [ownSql, haction] using hown
    simp [hwhere, Mark.fill_number hown, returning, returningSql, Mark.fill, Sql.text, Sql.name]
  | updateOne assignments =>
    have hown : Mark.Carries s.params (s.filter.next 1) assignments := by
      simpa [ownSql, haction] using hown
    simp [hwhere, Mark.fill_number hown, returning, returningSql, Mark.fill, Sql.text, Sql.name]
  | delete => simp [hwhere, Mark.fill, Sql.text, Sql.name]

/-! ## Quoted parts -/

variable {a columns source assignments : Sql} {q r qs : List Quote} {table : String}

/-- A condition behind a fragment adds what it has in quotes. -/
theorem reads_whereSql (ha : Reads a r) (hfilter : Reads filter.sql q) :
    Reads (a ++ whereSql filter) (r ++ q) := by
  unfold whereSql
  cases hp : filter.predicate with
  | none =>
    -- no condition is written, and there is nothing that it would have in quotes
    have hq : [] = q := by simpa [Filter.sql, hp] using hfilter.quotes_eq
    simpa [← hq] using ha
  | some p => simpa using ha.between (joins_row (s := " WHERE ") (by decide)) hfilter

/-- An order behind a fragment adds what it has in quotes. -/
theorem reads_orderSql (ha : Reads a r) (horder : ReadsAll (orderClauses filter order) q) :
    Reads (a ++ orderSql filter order) (r ++ q) :=
  horder.unlessEmpty ha (joins_row (by decide))

/-- A number of rows is bound. -/
theorem reads_rowCount {word : String} (ha : Reads a r) (hword : Joins word) (n : Option Int64) :
    Reads (a ++ rowCount word n) r := by
  cases n with
  | none => simpa [rowCount] using ha
  | some n => simpa [rowCount] using ha.beside hword (Reads.bind (.integer n))

/-- A search has its columns, its table, its condition and its order in quotes. -/
theorem reads_find {limit offset : Option Int64} (hcolumns : Reads columns r)
    (hfilter : Reads filter.sql q) (horder : ReadsAll (orderClauses filter order) qs) :
    Reads (inline ⟨table, filter, .find columns order limit offset⟩)
      (r ++ [⟨.name, table⟩] ++ q ++ qs) := by
  have hselect := hcolumns.after
    (joins_row (s := "SELECT row_to_json(t) AS \"_row\" FROM (SELECT ") (by decide))
  have hfrom := hselect.between
    (joins_row (s := " FROM ") (by decide)) (Reads.name table)
  have horder := reads_orderSql (reads_whereSql hfrom hfilter) horder
  have hlimit := reads_rowCount horder (joins_row (s := " LIMIT ") (by decide)) limit
  have hoffset := reads_rowCount hlimit (joins_row (s := " OFFSET ") (by decide)) offset
  exact hoffset.before (joins_row (by decide))

/-- A list of distinct values has their source, its table and its condition in quotes. -/
theorem reads_distinct (hsource : Reads source r) (hfilter : Reads filter.sql q) :
    Reads (inline ⟨table, filter, .distinct source⟩) (r ++ [⟨.name, table⟩] ++ q) := by
  have hselect := hsource.after (joins_row
    (s := "SELECT DISTINCT to_jsonb(d.value) AS \"_value\" FROM (SELECT ") (by decide))
  have hfrom := hselect.between
    (joins_row (s := " AS value FROM ") (by decide)) (Reads.name table)
  exact (reads_whereSql hfrom hfilter).before (joins_row (by decide))

/-- A count has its table and its condition in quotes. -/
theorem reads_count (hfilter : Reads filter.sql q) :
    Reads (inline ⟨table, filter, .count⟩) ([⟨.name, table⟩] ++ q) :=
  reads_whereSql ((Reads.name table).after (joins_row (by decide))) hfilter

/-- A deletion has its table and its condition in quotes. -/
theorem reads_delete (hfilter : Reads filter.sql q) :
    Reads (inline ⟨table, filter, .delete⟩) ([⟨.name, table⟩] ++ q) :=
  reads_whereSql ((Reads.name table).after (joins_row (by decide))) hfilter

/-- What is given back has the table in quotes once more. -/
theorem reads_returningSql (ha : Reads a r) :
    Reads (a ++ returningSql table) (r ++ [⟨.name, table⟩]) := by
  have htable := ha.between (joins_row (s := " RETURNING row_to_json(") (by decide))
    (Reads.name table)
  have hclosed := htable.closed (s := ") AS \"_row\"") (by simp [vocabulary, quoteEnders])
    (by simp [digitStarters])
  simpa [returningSql] using hclosed

/-- An update has its table, its assignments and its condition in quotes. -/
theorem reads_update (hassignments : Reads assignments r) (hfilter : Reads filter.sql q) :
    Reads (inline ⟨table, filter, .update assignments⟩)
      ([⟨.name, table⟩] ++ r ++ q ++ [⟨.name, table⟩]) := by
  have htable := (Reads.name table).after (joins_row (s := "UPDATE ") (by decide))
  have hset := htable.between (joins_row (s := " SET ") (by decide)) hassignments
  exact reads_returningSql (reads_whereSql hset hfilter)

/-- An update of one row has besides the column of the ids in quotes. -/
theorem reads_updateOne (hassignments : Reads assignments r) (hfilter : Reads filter.sql q) :
    Reads (inline ⟨table, filter, .updateOne assignments⟩)
      ([⟨.name, table⟩] ++ r ++ [⟨.name, objectIdField⟩] ++ [⟨.name, objectIdField⟩]
        ++ [⟨.name, table⟩] ++ q ++ [⟨.name, table⟩]) := by
  have htable := (Reads.name table).after (joins_row (s := "UPDATE ") (by decide))
  have hset := htable.between (joins_row (s := " SET ") (by decide)) hassignments
  have hid := hset.between (joins_row (s := " WHERE ") (by decide)) (Reads.name objectIdField)
  have hids := hid.between (joins_row (s := " IN (SELECT ") (by decide)) (Reads.name objectIdField)
  have hfrom := hids.between (joins_row (s := " FROM ") (by decide)) (Reads.name table)
  have hlimit := (reads_whereSql hfrom hfilter).before (joins_row (s := " LIMIT 1)") (by decide))
  exact reads_returningSql hlimit

/-- A statement is read back as its fragment. -/
theorem readBack_marks {s : RowStatement} (hbare : s.action.IsBare) (h : Reads s.inline q) :
    ReadBack s.marks q :=
  h.readBack (Mark.spell_of_fill (fill_marks s hbare))

end RowStatement

/-! ## Numbers -/

/-- Whether an action writes the order that its filter asks for. -/
def RowAction.writesOrder : RowAction → Bool
  | .find .. => true
  | .count | .distinct _ | .update _ | .updateOne _ | .delete => false

/-- The sort clauses of a filter as one fragment. -/
def Filter.orderSql (filter : Filter) : Sql := filter.sorts.flatten

namespace RowStatement

open Mark

variable {filter : Filter} {order : List Sql} {s : RowStatement}

theorem range'_append_range' (first m n : Nat) :
    List.range' first m ++ List.range' (first + m) n = List.range' first (m + n) :=
  List.range'_append_1

/-- The condition has the first numbers. -/
theorem placeholders_whereMarks (filter : Filter) :
    placeholders (whereMarks filter) = List.range' 1 filter.sql.bindCount := by
  unfold whereMarks
  cases hp : filter.predicate with
  | none => simp [Filter.sql, hp, Sql.bindCount]
  | some p => exact placeholders_number 1 filter.sql

/-- Commas are no placeholders. -/
theorem placeholders_list (parts : List (List Mark)) :
    placeholders (list parts) = parts.flatMap placeholders := by
  induction parts with
  | nil => rfl
  | cons part rest ih =>
    cases rest with
    | nil => simp [list]
    | cons next rest => simp [list, ih]

/-- Fragments that are numbered one after another have consecutive numbers. -/
theorem placeholders_numberEach (index : Nat) (sqls : List Sql) :
    (Filter.numberEach index sqls).flatMap placeholders
      = List.range' index (Sql.bindCount sqls.flatten) := by
  induction sqls generalizing index with
  | nil => rfl
  | cons sql rest ih =>
    rw [Filter.numberEach, List.flatMap_cons, placeholders_number, ih, range'_append_range',
      List.flatten_cons, Sql.bindCount_append]

/-- The order has the numbers after those of the condition. -/
theorem placeholders_orderMarks (horder : ∀ clause ∈ order, clause.params = []) :
    placeholders (orderMarks filter order)
      = List.range' (1 + filter.sql.bindCount) filter.orderSql.bindCount := by
  have hclauses : ∀ clauses : List (List Mark),
      placeholders (if clauses.isEmpty then [] else .text " ORDER BY " :: list clauses)
        = clauses.flatMap placeholders := by
    intro clauses
    cases clauses with
    | nil => rfl
    | cons clause rest => exact placeholders_list (clause :: rest)
  refine (hclauses _).trans ?_
  split
  next hempty =>
    have hnone : ∀ clause ∈ order, placeholders (clause.number 1) = [] := by
      intro clause hclause
      rw [placeholders_number, Sql.bindCount, horder clause hclause]
      rfl
    rw [Filter.orderSql, List.isEmpty_iff.mp hempty, List.flatMap_map,
      List.flatMap_eq_nil_iff.mpr hnone]
    rfl
  next => exact placeholders_numberEach _ _

/-- All values of a statement: those of its condition, of its sort clauses and of the rest. -/
theorem length_params (s : RowStatement) : s.params.length
    = s.filter.sql.bindCount + s.filter.orderSql.bindCount + s.ownSql.bindCount := by
  simp [RowStatement.params, Filter.params, Filter.allSql, Filter.orderSql, Sql.bindCount,
    Nat.add_assoc]

/-- The number after those of a filter. -/
theorem next_one (filter : Filter) :
    filter.next 1 = 1 + (filter.sql.bindCount + filter.orderSql.bindCount) := by
  simp [Filter.next, Filter.allSql, Filter.orderSql]

/-- The numbers of two consecutive parts, whichever stands first in the text. -/
theorem range'_perm (m n : Nat) :
    (List.range' (1 + m) n ++ List.range' 1 m).Perm (List.range' 1 (m + n)) := by
  rw [← range'_append_range']
  exact List.perm_append_comm

/-- A search has all numbers in its text. -/
theorem perm_find {columns : Sql} {limit offset : Option Int64}
    (haction : s.action = .find columns order limit offset)
    (horder : ∀ clause ∈ order, clause.params = []) :
    (placeholders s.marks).Perm (List.range' 1 s.params.length) := by
  let rest := rowCount " LIMIT " limit ++ rowCount " OFFSET " offset
  have hown : s.ownSql.bindCount = columns.bindCount + rest.bindCount := by
    simp [ownSql, haction, boundSql, rest]
  have hmarks : placeholders s.marks
      = List.range' (s.filter.next 1) columns.bindCount
        ++ (List.range' 1 (s.filter.sql.bindCount + s.filter.orderSql.bindCount)
          ++ List.range' (s.filter.next 1 + columns.bindCount) rest.bindCount) := by
    simp [marks, haction, findMarks, placeholders_number, placeholders_whereMarks,
      placeholders_orderMarks horder, rest]
    rw [← List.append_assoc, range'_append_range']
  -- in the text the columns come first, and their numbers after those of the filter
  rw [hmarks, length_params, hown, ← Nat.add_assoc, next_one, ← List.append_assoc, Nat.add_assoc 1,
    ← range'_append_range' 1 (_ + columns.bindCount)]
  exact (range'_perm _ _).append_right _

/-- An action that does not write the order has the numbers of its condition and of the rest. -/
theorem perm_unordered (hbare : s.action.IsBare) (h : s.action.writesOrder = false) :
    (placeholders s.marks).Perm
      (List.range' 1 s.filter.sql.bindCount
        ++ List.range' (s.filter.next 1) s.ownSql.bindCount) := by
  unfold marks ownSql
  cases haction : s.action with
  | find columns order limit offset => simp [haction, RowAction.writesOrder] at h
  | count | delete => simp [placeholders_whereMarks, Sql.bindCount]
  | distinct source =>
    rw [haction] at hbare
    have hsource : source.bindCount = 0 := List.length_eq_zero_iff.mpr hbare
    have hnothing : Sql.bindCount [] = 0 := rfl
    simp [placeholders_whereMarks, placeholders_number, hsource, hnothing]
  | update assignments =>
    simp only [returning]
    simpa [placeholders_whereMarks, placeholders_number] using List.perm_append_comm
  | updateOne assignments =>
    simp only [returning]
    simpa [placeholders_whereMarks, placeholders_number] using List.perm_append_comm

/-- A statement has all numbers in its text, each of them once, just if it writes its order or if no
order binds values. -/
theorem placeholders_perm_iff (hbare : s.action.IsBare) :
    (placeholders s.marks).Perm (List.range' 1 s.params.length) ↔
      s.action.writesOrder = true ∨ s.filter.orderSql.bindCount = 0 := by
  cases hwrites : s.action.writesOrder with
  | true =>
    refine iff_of_true ?_ (Or.inl rfl)
    cases haction : s.action with
    | find columns order limit offset => exact perm_find haction (by rwa [haction] at hbare)
    | _ => simp [haction, RowAction.writesOrder] at hwrites
  | false =>
    have hperm := perm_unordered hbare hwrites
    simp only [Bool.false_eq_true, false_or]
    constructor
    · intro h
      -- there are fewer placeholders than values, by the number of those of the order
      have hlength := (hperm.symm.trans h).length_eq
      simp only [List.length_append, List.length_range', length_params] at hlength
      omega
    · intro hnone
      rw [next_one, hnone, Nat.add_zero, range'_append_range'] at hperm
      rwa [length_params, hnone, Nat.add_zero]

end RowStatement

end ObjectStore
