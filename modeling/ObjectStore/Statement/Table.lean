import ObjectStore.Sql.Basic
import ObjectStore.Statement.Relation
import ObjectStore.Value.Column

/-!
# Statements on tables and indexes

Creating, changing and dropping tables and indexes. These statements bind no values.
-/

namespace ObjectStore

/-- A statement that defines something. -/
inductive TableStatement where
  | createTable (table : String) (columns : List (String × ColumnType))
  | createJoinTable (table : JoinTable)
  | createMetadataTable
  | addColumn (table column : String) (type : ColumnType)
  | dropColumns (table : String) (columns : List String)
  | dropTable (table : String)
  | createUniqueIndex (index table : String) (columns : List String)
  | createIndex (index table : String) (columns : List String)
  | ensureIndex (index table : String) (columns : List String) (ignoringCase : Bool)
  | dropIndex (index : String)
  | createFunction (definition : String)
  | dropFunction (signature : String)

namespace TableStatement

/-- A name between quotes as it is. -/
def verbatimName (name : String) : Sql := Sql.text ("\"" ++ name ++ "\"")

/-- A column with its type. -/
def columnSql (column : String × ColumnType) : Sql :=
  Sql.name column.1 ++ Sql.text (" " ++ column.2.name)

/-- A column of ids in a join table. -/
def idColumn (column : String) : Sql := Sql.name column ++ Sql.text " varchar(120) NOT NULL"

/-- Column names in parentheses. -/
def columnList (columns : List String) : Sql := (Sql.join ", " (columns.map Sql.name)).parens

/-- The definition of a table with its parts. -/
def tableSql (table : String) (parts : List Sql) : Sql :=
  Sql.text "CREATE TABLE IF NOT EXISTS " ++ Sql.name table ++ Sql.text " ( "
    ++ Sql.join ", " parts ++ Sql.text " )"

/-- A column of an index, on its lower case if case is to be ignored. -/
def indexColumn (ignoringCase : Bool) (column : String) : Sql :=
  if ignoringCase then
    Sql.text "lower(" ++ Sql.name column ++ Sql.text ") varchar_pattern_ops"
  else Sql.name column

/-- The fragment of a statement. -/
def sql : TableStatement → Sql
  | .createTable table columns =>
    tableSql table (columns.map columnSql
      ++ [Sql.text "PRIMARY KEY " ++ columnList [objectIdField]])
  | .createJoinTable table =>
    tableSql table.name [idColumn relatedColumn, idColumn owningColumn,
      Sql.text "PRIMARY KEY " ++ columnList [relatedColumn, owningColumn]]
  | .createMetadataTable =>
    tableSql "_SCHEMA" [idColumn "className" ++ Sql.text " PRIMARY KEY",
      Sql.name "schema" ++ Sql.text " jsonb", Sql.name "isParseClass" ++ Sql.text " bool"]
  | .addColumn table column type =>
    Sql.text "ALTER TABLE " ++ Sql.name table ++ Sql.text " ADD COLUMN " ++ columnSql (column, type)
  | .dropColumns table columns =>
    Sql.text "ALTER TABLE " ++ Sql.name table ++ Sql.text " "
      ++ Sql.join ", " (columns.map fun column =>
        Sql.text "DROP COLUMN IF EXISTS " ++ Sql.name column)
  | .dropTable table => Sql.text "DROP TABLE IF EXISTS " ++ Sql.name table
  | .createUniqueIndex index table columns =>
    Sql.text "CREATE UNIQUE INDEX " ++ verbatimName index ++ Sql.text " ON " ++ Sql.name table
      ++ Sql.text " " ++ columnList columns
  | .createIndex index table columns =>
    Sql.text "CREATE INDEX IF NOT EXISTS " ++ verbatimName index ++ Sql.text " ON "
      ++ Sql.name table ++ Sql.text " " ++ columnList columns
  | .ensureIndex index table columns ignoringCase =>
    Sql.text "CREATE INDEX IF NOT EXISTS " ++ Sql.name index ++ Sql.text " ON " ++ Sql.name table
      ++ Sql.text " " ++ (Sql.join ", " (columns.map (indexColumn ignoringCase))).parens
  | .dropIndex index => Sql.text "DROP INDEX IF EXISTS " ++ Sql.name index
  | .createFunction definition => Sql.text definition
  | .dropFunction signature => Sql.text ("DROP FUNCTION IF EXISTS " ++ signature)

end TableStatement

end ObjectStore
