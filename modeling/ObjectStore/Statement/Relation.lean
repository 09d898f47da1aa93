import ObjectStore.Schema.Basic
import ObjectStore.Sql.Basic

/-!
# Join tables

The tables that hold the edges of relations, and the statements that read and write them.
-/

namespace ObjectStore

/-!
## Tables of edges

A relation field has no column. Its edges, from an owning object to related objects, are the rows
of a join table that belongs to the class and the field.
-/

/-- The relation of a class under a field. -/
structure JoinTable where
  className : String
  field : String
  deriving Repr, DecidableEq

namespace JoinTable

/-- The name of a join table. -/
def name (t : JoinTable) : String := "_Join:" ++ t.field ++ ":" ++ t.className

end JoinTable

namespace Schema

/-- The join tables of a class. -/
def joinTables (s : Schema) : List JoinTable := s.relationFields.map (JoinTable.mk s.className)

end Schema

/-- The join tables of some classes, each once. -/
abbrev JoinTables := List JoinTable

namespace JoinTables

/-- The join tables of some classes. -/
def ofSchemas (schemas : List Schema) : JoinTables := (schemas.flatMap Schema.joinTables).eraseDups

/-- The join table of a field, if it is a relation. -/
def find? (tables : JoinTables) (className field : String) : Option JoinTable :=
  if tables.contains ⟨className, field⟩ then some ⟨className, field⟩ else none

/-- The join table of a field, which must be a relation. -/
def require (tables : JoinTables) (className field : String) : Result JoinTable :=
  match tables.find? className field with
  | some table => .ok table
  | none => .error (.invalidKeyName (.notRelation field className))

end JoinTables

/-! ## Statements -/

/-- The column of the object that an edge leads to. -/
def relatedColumn : String := "relatedId"

/-- The column of the object that an edge starts from. -/
def owningColumn : String := "owningId"

/-- A statement on a join table. -/
inductive RelationStatement where
  | owners (table : JoinTable) (relatedIds : List String)
  | related (table : JoinTable) (owningId : String)
  | link (table : JoinTable) (owningId relatedId : String)
  | unlink (table : JoinTable) (owningId relatedId : String)
  deriving Repr, DecidableEq

namespace RelationStatement

/-- A column that equals a bound text. -/
def columnEquals (column value : String) : Sql :=
  Sql.name column ++ Sql.text " = " ++ Sql.bindText value

/-- Both columns of an edge. -/
def edgeColumns : Sql :=
  (Sql.name relatedColumn ++ Sql.text ", " ++ Sql.name owningColumn).parens

/-- The fragment of a statement. -/
def sql : RelationStatement → Sql
  | .owners table relatedIds =>
    Sql.text "SELECT " ++ Sql.name owningColumn ++ Sql.text " FROM " ++ Sql.name table.name
      ++ Sql.text " WHERE " ++ Sql.name relatedColumn ++ Sql.text " IN "
      ++ (Sql.join ", " (relatedIds.map Sql.bindText)).parens
  | .related table owningId =>
    Sql.text "SELECT " ++ Sql.name relatedColumn ++ Sql.text " FROM " ++ Sql.name table.name
      ++ Sql.text " WHERE " ++ columnEquals owningColumn owningId
  | .link table owningId relatedId =>
    Sql.text "INSERT INTO " ++ Sql.name table.name ++ Sql.text " " ++ edgeColumns
      ++ Sql.text " VALUES (" ++ Sql.bindText relatedId ++ Sql.text ", " ++ Sql.bindText owningId
      ++ Sql.text ") ON CONFLICT " ++ edgeColumns ++ Sql.text " DO NOTHING"
  | .unlink table owningId relatedId =>
    Sql.text "DELETE FROM " ++ Sql.name table.name ++ Sql.text " WHERE "
      ++ columnEquals relatedColumn relatedId ++ Sql.text " AND "
      ++ columnEquals owningColumn owningId

end RelationStatement

end ObjectStore
