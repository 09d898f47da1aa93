import ObjectStore.Aggregate.Plan
import ObjectStore.Statement.Metadata
import ObjectStore.Statement.Rows
import ObjectStore.Statement.Table

/-!
# Statements

Everything that is sent to the engine, with its text and the values that it binds. A statement that
defines something is sent without values; every other one is sent with a list of them, even an
empty one.
-/

namespace ObjectStore

/-- A statement. -/
inductive Statement where
  | rows (statement : RowStatement)
  | insert (className : String) (columns : List (String × Sql))
  | aggregate (className : String) (plan : Aggregate.Plan)
  | relation (statement : RelationStatement)
  | metadata (statement : MetadataStatement)
  | table (statement : TableStatement)

namespace Statement

/-- The fragment that inserts a row. -/
def insertSql (table : String) (columns : List (String × Sql)) : Sql :=
  Sql.text "INSERT INTO " ++ Sql.name table ++ Sql.text " ("
    ++ Sql.join ", " (columns.map fun column => Sql.name column.1) ++ Sql.text ") VALUES ("
    ++ Sql.join ", " (columns.map Prod.snd) ++ Sql.text ")"

/-- The fragment of a statement whose values are bound in reading order. -/
def sql? : Statement → Option Sql
  | .rows _ => none
  | .insert className columns => some (insertSql className columns)
  | .aggregate className plan => some (plan.sql className)
  | .relation statement => some statement.sql
  | .metadata statement => some statement.sql
  | .table statement => some statement.sql

/-- The marks of a statement. -/
def marks : Statement → List Mark
  | .rows statement => statement.marks
  | statement => (statement.sql?.getD []).number 1

/-- The text of a statement. -/
def text (s : Statement) : String := Mark.join s.marks

/-- The values of a statement, if it is sent with values. -/
def params? : Statement → Option (List Param)
  | .rows statement => some statement.params
  | .table _ => none
  | statement => statement.sql?.map Sql.params

end Statement

end ObjectStore
