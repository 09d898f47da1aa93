import ObjectStore.Schema.Document
import ObjectStore.Sql.Basic

/-!
# Statements on what is known of classes

The metadata table holds one schema document for each class. Besides it the engine's own catalogue
tells which tables, columns and indexes there are.
-/

namespace ObjectStore

/-- The table of schema documents. -/
def metadataTable : String := "_SCHEMA"

/-- A statement on the metadata table or on the engine's catalogue. -/
inductive MetadataStatement where
  | document (className : String)
  | documents
  | record (schema : Schema)
  | replace (schema : Schema)
  | setPart (className key : String) (value : Json)
  | recordField (className field : String) (type : FieldType)
  | setField (className field : String) (type : FieldType)
  | forget (className : String)
  | forgetAll
  | tableExists (table : String)
  | columns (table : String)
  | indexes (table : String)
  | rowEstimate (table : String)

namespace MetadataStatement

/-- The condition that a row belongs to a class. -/
def ofClass (className : String) : Sql :=
  Sql.text " WHERE " ++ Sql.name "className" ++ Sql.text " = " ++ Sql.bindText className

/-- The metadata table with the word before it. -/
def fromMetadata : Sql := Sql.text " FROM " ++ Sql.name metadataTable

/-- A change of the document of a class by an expression. -/
def setDocument (className : String) (expression : Sql) : Sql :=
  Sql.text "UPDATE " ++ Sql.name metadataTable ++ Sql.text " SET " ++ Sql.name "schema"
    ++ Sql.text " = " ++ expression ++ ofClass className

/-- A document with one field replaced or added. -/
def withField (base : Sql) (field : String) (type : FieldType) (ending : String) : Sql :=
  Sql.text "jsonb_set(" ++ base ++ Sql.text ", ARRAY['fields', " ++ Sql.bindText field
    ++ Sql.text "::text], " ++ Sql.bindJson type.toJson.compact ++ Sql.text ending

/-- The fragment of a statement. -/
def sql : MetadataStatement → Sql
  | .document className =>
    Sql.text "SELECT " ++ Sql.name "schema" ++ fromMetadata ++ ofClass className
  | .documents =>
    Sql.text "SELECT " ++ Sql.name "className" ++ Sql.text ", " ++ Sql.name "schema" ++ fromMetadata
  | .record schema =>
    Sql.text "INSERT INTO " ++ Sql.name metadataTable ++ Sql.text " ("
      ++ Sql.join ", " (["className", "schema", "isParseClass"].map Sql.name)
      ++ Sql.text ") VALUES (" ++ Sql.bindText schema.className ++ Sql.text ", "
      ++ Sql.bind (.json schema.toJson) ++ Sql.text ", " ++ Sql.bind (.bool true)
      ++ Sql.text ") ON CONFLICT (" ++ Sql.name "className" ++ Sql.text ") DO NOTHING"
  | .replace schema => setDocument schema.className (Sql.bindJson schema.toJson.compact)
  | .setPart className key value =>
    setDocument className
      (Sql.text "json_object_set_key(" ++ Sql.name "schema" ++ Sql.text ", " ++ Sql.bindText key
        ++ Sql.text "::text, " ++ Sql.bindJson value.compact ++ Sql.text ")")
  | .recordField className field type =>
    let base := Sql.text "COALESCE(" ++ Sql.name "schema"
      ++ Sql.text ", '\x7b\"fields\": \x7b\x7d\x7d'::jsonb)"
    setDocument className (withField base field type ", true)")
  | .setField className field type =>
    setDocument className (withField (Sql.name "schema") field type ")")
  | .forget className => Sql.text "DELETE" ++ fromMetadata ++ ofClass className
  | .forgetAll => Sql.text "DELETE" ++ fromMetadata
  | .tableExists table =>
    Sql.text "SELECT 1 FROM " ++ Sql.name "information_schema" ++ Sql.text "."
      ++ Sql.name "tables" ++ Sql.text " WHERE " ++ Sql.name "table_name" ++ Sql.text " = "
      ++ Sql.bindText table ++ Sql.text " LIMIT " ++ Sql.bind (.natural 1)
  | .columns table =>
    Sql.text "SELECT " ++ Sql.name "column_name" ++ Sql.text " FROM "
      ++ Sql.name "information_schema" ++ Sql.text "." ++ Sql.name "columns"
      ++ Sql.text " WHERE " ++ Sql.name "table_name" ++ Sql.text " = " ++ Sql.bindText table
  | .indexes table =>
    Sql.text "SELECT " ++ Sql.name "indexname" ++ Sql.text ", " ++ Sql.name "indexdef"
      ++ Sql.text " FROM " ++ Sql.name "pg_indexes" ++ Sql.text " WHERE "
      ++ Sql.name "tablename" ++ Sql.text " = " ++ Sql.bindText table
  | .rowEstimate table =>
    Sql.text "SELECT reltuples AS approximate_row_count FROM pg_class WHERE relname = "
      ++ Sql.bindText table

end MetadataStatement

end ObjectStore
