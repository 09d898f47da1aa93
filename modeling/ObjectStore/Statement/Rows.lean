import ObjectStore.Query.Compile

/-!
# Statements on the rows of a class

Reading, counting, changing and deleting the rows that a filter keeps. The filter always takes the
first numbers, wherever it stands in the text; what else is bound comes after it, in reading order.
-/

namespace ObjectStore

/-- What is done with the rows that a filter keeps. -/
inductive RowAction where
  | find (columns : Sql) (order : List Sql) (limit offset : Option Int64)
  | count
  | distinct (source : Sql)
  | update (assignments : Sql)
  | updateOne (assignments : Sql)
  | delete

/-- A statement on the rows of a table. -/
structure RowStatement where
  table : String
  filter : Filter
  action : RowAction

namespace RowStatement

/-- The condition of a statement, with its word. -/
def whereMarks (filter : Filter) : List Mark :=
  if filter.predicate.isSome then .text " WHERE " :: filter.marks 1 else []

/-- Marks with commas between them. -/
def list : List (List Mark) → List Mark
  | [] => []
  | [part] => part
  | part :: next :: rest => part ++ .text ", " :: list (next :: rest)

/-- The order of the rows: what the filter asks for goes before what the statement asks for. -/
def orderMarks (filter : Filter) (order : List Sql) : List Mark :=
  let clauses := if filter.sorts.isEmpty then order.map (Sql.number 1) else filter.sortMarks 1
  if clauses.isEmpty then [] else .text " ORDER BY " :: list clauses

/-- A bound number of rows after a word. -/
def rowCount (word : String) : Option Int64 → Sql
  | some n => Sql.text word ++ Sql.bind (.integer n)
  | none => []

/-- The columns, the limit and the offset of a search, which are numbered in this order. -/
def boundSql (columns : Sql) (limit offset : Option Int64) : Sql :=
  columns ++ rowCount " LIMIT " limit ++ rowCount " OFFSET " offset

/-- The marks of a search. -/
def findMarks (s : RowStatement) (columns : Sql) (order : List Sql) (limit offset : Option Int64) :
    List Mark :=
  let start := s.filter.next 1
  [.text "SELECT row_to_json(t) AS \"_row\" FROM (SELECT "] ++ columns.number start
    ++ [.text " FROM ", .name s.table] ++ whereMarks s.filter ++ orderMarks s.filter order
    ++ (rowCount " LIMIT " limit ++ rowCount " OFFSET " offset).number (start + columns.bindCount)
    ++ [.text ") AS t"]

/-- What a statement that changes rows gives back: every changed row as one JSON record. -/
def returning (table : String) : List Mark :=
  [.text " RETURNING row_to_json(", .name table, .text ") AS \"_row\""]

/-- The marks of a statement. -/
def marks (s : RowStatement) : List Mark :=
  match s.action with
  | .find columns order limit offset => s.findMarks columns order limit offset
  | .count => [.text "SELECT count(*) AS count FROM ", .name s.table] ++ whereMarks s.filter
  | .distinct source =>
    [.text "SELECT DISTINCT to_jsonb(d.value) AS \"_value\" FROM (SELECT "] ++ source.number 1
      ++ [.text " AS value FROM ", .name s.table] ++ whereMarks s.filter ++ [.text ") AS d"]
  | .update assignments =>
    [.text "UPDATE ", .name s.table, .text " SET "] ++ assignments.number (s.filter.next 1)
      ++ whereMarks s.filter ++ returning s.table
  | .updateOne assignments =>
    [.text "UPDATE ", .name s.table, .text " SET "] ++ assignments.number (s.filter.next 1)
      ++ [.text " WHERE ", .name objectIdField, .text " IN (SELECT ", .name objectIdField,
        .text " FROM ", .name s.table]
      ++ whereMarks s.filter ++ [.text " LIMIT 1)"] ++ returning s.table
  | .delete => [.text "DELETE FROM ", .name s.table] ++ whereMarks s.filter

/-- What a statement binds besides its filter. -/
def ownSql (s : RowStatement) : Sql :=
  match s.action with
  | .find columns _ limit offset => boundSql columns limit offset
  | .update assignments | .updateOne assignments => assignments
  | .count | .distinct _ | .delete => []

/-- The bound values: those of the filter, with its sort clauses, and then the others. -/
def params (s : RowStatement) : List Param := s.filter.params ++ s.ownSql.params

end RowStatement

end ObjectStore
