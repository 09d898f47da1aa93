import ObjectStore.Engine.Session

/-!
# Setup

The metadata table, and the functions on JSON that the statements of the store call. Setting up
what is there already changes nothing.
-/

namespace ObjectStore.Setup

/-- A function of the engine: its signature and its definition. -/
structure EngineFunction where
  signature : String
  definition : String
  deriving Repr, DecidableEq

/-- The head of the definition of a function that depends on its arguments only. -/
def head (name parameters result strictness : String) : String :=
  "CREATE OR REPLACE FUNCTION " ++ name ++ "(" ++ parameters ++ ")\nRETURNS " ++ result
    ++ " LANGUAGE sql IMMUTABLE" ++ strictness ++ " AS $function$\n"

/-- The definition of a function from its head and the lines of its body. -/
def define (head : String) (body : List String) : String :=
  head ++ String.join (body.map (· ++ "\n")) ++ "$function$"

/-- The definition of a function of an array and some values, both JSON. -/
def onArray (name result : String) (body : List String) : EngineFunction :=
  ⟨name ++ "(jsonb, jsonb)",
    define (head name "\"array\" jsonb, \"values\" jsonb" result " STRICT") body⟩

/-- Appends values to an array. -/
def append : EngineFunction :=
  onArray "array_add" "jsonb" [
    "  SELECT \"array\" || \"values\";"]

/-- Appends to an array the values that it does not hold yet. -/
def appendUnique : EngineFunction :=
  onArray "array_add_unique" "jsonb" [
    "  SELECT COALESCE(jsonb_agg(element ORDER BY position), '[]'::jsonb)",
    "  FROM (",
    "    SELECT DISTINCT ON (element) element, position",
    "    FROM jsonb_array_elements(\"array\" || \"values\") WITH ORDINALITY AS items(element, position)",
    "    ORDER BY element, position",
    "  ) AS unique_items;"]

/-- Removes values from an array. -/
def remove : EngineFunction :=
  onArray "array_remove" "jsonb" [
    "  SELECT COALESCE(jsonb_agg(element ORDER BY position), '[]'::jsonb)",
    "  FROM jsonb_array_elements(\"array\") WITH ORDINALITY AS items(element, position)",
    "  WHERE NOT \"values\" @> jsonb_build_array(element);"]

/-- Whether an array holds all of some values, of which there must be one. -/
def containsAll : EngineFunction :=
  onArray "array_contains_all" "boolean" [
    "  SELECT CASE",
    "    WHEN jsonb_array_length(\"values\") = 0 THEN false",
    "    ELSE \"array\" @> \"values\"",
    "  END;"]

/-- Whether an array holds a match of each of some like-patterns, of which there must be one. -/
def containsAllMatches : EngineFunction :=
  onArray "array_contains_all_regex" "boolean" [
    "  SELECT CASE",
    "    WHEN jsonb_array_length(\"values\") = 0 THEN false",
    "    ELSE (",
    "      SELECT bool_and(EXISTS (",
    "        SELECT 1 FROM jsonb_array_elements_text(\"array\") AS element",
    "        WHERE element LIKE pattern",
    "      ))",
    "      FROM jsonb_array_elements_text(\"values\") AS pattern",
    "    )",
    "  END;"]

/-- Whether an array holds one of some values. -/
def containsAny : EngineFunction :=
  onArray "array_contains" "boolean" [
    "  SELECT EXISTS (",
    "    SELECT 1 FROM jsonb_array_elements(\"array\") AS element",
    "    WHERE \"values\" @> jsonb_build_array(element)",
    "  );"]

/-- Sets a key of an object. -/
def setKey : EngineFunction :=
  ⟨"json_object_set_key(jsonb, text, jsonb)", define (head "json_object_set_key"
    "\"json\" jsonb, key_to_set text, value_to_set jsonb" "jsonb" "") [
    "  SELECT COALESCE(\"json\", '\x7b\x7d'::jsonb) || jsonb_build_object(key_to_set, value_to_set);"]⟩

/-- The functions in the order in which they are created. -/
def functions : List EngineFunction :=
  [append, appendUnique, remove, containsAll, containsAllMatches, containsAny, setKey]

/-- Sends a definition. -/
def send (statement : TableStatement) : Work Unit := do
  let _ ← Work.execute (.table statement)

/-- Creates the metadata table and the functions. -/
def install : Work Unit := do
  send .createMetadataTable
  functions.forM fun function => send (.createFunction function.definition)

/-- Drops the functions and the metadata table, the last ones first. -/
def uninstall : Work Unit := do
  functions.reverse.forM fun function => send (.dropFunction function.signature)
  send (.dropTable metadataTable)

end ObjectStore.Setup
