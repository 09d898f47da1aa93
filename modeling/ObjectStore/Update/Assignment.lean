import ObjectStore.Schema.Basic
import ObjectStore.Update.Operators
import ObjectStore.Value.Encode

/-!
# Assignments

An update as the assignments of a statement. A column is assigned once: all dotted keys into one
object column fold into one expression, each step of which takes the one before as its base.
-/

namespace ObjectStore.Update

/-- Refuses an update that no column can take. -/
def unsupported {α : Type} (value : Json) : Result α :=
  .error (.operationForbidden (.updateOperator value))

/-- A list operator on an array column, which counts as empty where it holds nothing. -/
def listExpression (column : Sql) (isTextArray : Bool) (operator : ListOperator)
    (elements : List Json) : Sql :=
  let document := Sql.bindJson (Json.arr elements).compact
  if isTextArray then
    let base := Sql.text "COALESCE(" ++ column ++ Sql.text ", '\x7b\x7d'::text[])"
    if operator = .add then base ++ Sql.text " || " ++ FieldType.textArray elements
    else
      Sql.text ("ARRAY(SELECT jsonb_array_elements_text(" ++ operator.function ++ "(to_jsonb(")
        ++ base ++ Sql.text "), " ++ document ++ Sql.text ")))"
  else
    Sql.text (operator.function ++ "(COALESCE(") ++ column ++ Sql.text ", '[]'::jsonb), "
      ++ document ++ Sql.text ")"

/-- What a column is assigned for an operator. -/
def operatorExpression (name : String) (type : FieldType) (value : Json) (tag : String) :
    Result Sql :=
  match tag, ListOperator.ofTag? tag with
  | _, some operator => do
    let elements ← elements value
    pure (listExpression (Sql.name name) (type.column? = some .textArray) operator elements)
  | "Delete", _ => .ok (Sql.text "NULL")
  | "Increment", _ => do
    let amount ← amount value
    pure (Sql.text "COALESCE(" ++ Sql.name name ++ Sql.text ", 0) + " ++ Sql.bind (.double amount))
  | _, _ => unsupported value

/-- What a column is assigned for a member of an update. -/
def expression (name : String) (type : FieldType) (value : Json) : Result Sql :=
  match value.opTag? with
  | some tag => operatorExpression name type value tag
  | none => do
    match ← type.encode value with
    | some sql => pure sql
    | none => unsupported value

/-- The column of an object, which counts as empty where it holds nothing. -/
def objectBase (root : String) : Sql :=
  Sql.text "COALESCE(" ++ Sql.name root ++ Sql.text ", '\x7b\x7d'::jsonb)"

/-- A path inside an object, as an array of its parts. -/
def bindPath (parts : List String) : Sql :=
  Sql.bindText (Sql.arrayLiteral parts) ++ Sql.text "::text[]"

/-- The expression `base` with one more change to what lies at a path of an object. -/
def pathExpression (base : Sql) (root : String) (parts : List String) (value : Json) :
    Result Sql :=
  match value.opTag? with
  | none =>
    .ok (Sql.text "jsonb_set(" ++ base ++ Sql.text ", " ++ bindPath parts ++ Sql.text ", "
      ++ Sql.bindJson value.compact ++ Sql.text ")")
  | some "Delete" =>
    .ok (Sql.text "(" ++ base ++ Sql.text " #- " ++ bindPath parts ++ Sql.text ")")
  | some "Increment" => do
    let amount ← amount value
    pure (Sql.text "jsonb_set(" ++ base ++ Sql.text ", " ++ bindPath parts
      ++ Sql.text ", to_jsonb(COALESCE((" ++ Sql.name root ++ Sql.text " #>> " ++ bindPath parts
      ++ Sql.text ")::double precision, 0) + " ++ Sql.bind (.double amount) ++ Sql.text "))")
  | some _ => unsupported value

/-- The assignments of an update as they are gathered: those of whole columns in the order of their
keys, and the expressions of objects by their columns. -/
structure Assignments where
  whole : List (String × Sql) := []
  nested : Dict Sql := []

namespace Assignments

/-- The assignments with that of one more member of an update. -/
def assign (s : Schema) (a : Assignments) (member : String × Json) : Result Assignments :=
  let (key, value) := member
  match Text.cut? '.' key with
  | some (root, rest) =>
    if s.field? root = some .object then do
      let base := (a.nested.get? root).getD (objectBase root)
      let expression ← pathExpression base root (Text.split '.' rest) value
      pure { a with nested := a.nested.insert root expression }
    else .error (.invalidKeyName (.updateField key))
  | none =>
    match s.field? key with
    | none => .error (.invalidKeyName (.updateField key))
    | some type => do
      pure { a with whole := a.whole ++ [(key, ← expression key type value)] }

/-- All assignments: whole columns first, then objects. -/
def all (a : Assignments) : List (String × Sql) := a.whole ++ a.nested

end Assignments

/-- The assignments of an update, of which there must be one. -/
def assignments (s : Schema) (update : Object) : Result (List (String × Sql)) := do
  let all := (← update.foldlM (Assignments.assign s.forStorage) {}).all
  if all.isEmpty then throw (.invalidQuery .nothingToStore)
  pure all

/-- Assignments as a fragment. -/
def assignmentSql (all : List (String × Sql)) : Sql :=
  Sql.join ", " (all.map fun (column, expression) =>
    Sql.name column ++ Sql.text " = " ++ expression)

/-- The assignments of an update as a fragment. -/
def setClause (s : Schema) (update : Object) : Result Sql :=
  (assignments s update).map assignmentSql

end ObjectStore.Update
