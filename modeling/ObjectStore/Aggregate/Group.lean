import ObjectStore.Error.Basic
import ObjectStore.Schema.Basic
import ObjectStore.Sql.Basic

/-!
# Grouping

The `$group` stage of a pipeline: the key that rows are grouped by, and the accumulators over each
group. A key of several parts comes back as one column for each part, and is put together again
from the row under the object id.
-/

namespace ObjectStore.Aggregate

/-- The column that a field reference names; the reference may start with `$`. -/
def columnOfName (text : String) : String :=
  match (Text.dropStart? text "$").getD text with
  | "_created_at" => createdAtField
  | "_updated_at" => updatedAtField
  | "_id" => objectIdField
  | other => other

/-- The column that a field reference names. -/
def column (reference : Json) : Result String :=
  match reference with
  | .str text => .ok (columnOfName text)
  | _ => .error (.invalidQuery (.notFieldReference reference))

/-- The part of a date that an operator takes. -/
def datePart? : String → Option String
  | "$dayOfMonth" => some "DAY"
  | "$dayOfWeek" => some "DOW"
  | "$dayOfYear" => some "DOY"
  | "$isoDayOfWeek" => some "ISODOW"
  | "$isoWeekYear" => some "ISOYEAR"
  | "$hour" => some "HOUR"
  | "$minute" => some "MINUTE"
  | "$second" => some "SECOND"
  | "$millisecond" => some "MILLISECONDS"
  | "$month" => some "MONTH"
  | "$week" | "$isoWeek" => some "WEEK"
  | "$year" => some "YEAR"
  | _ => none

/-- The function of an accumulator. -/
def accumulator? : String → Option String
  | "$sum" => some "SUM"
  | "$max" => some "MAX"
  | "$min" => some "MIN"
  | "$avg" => some "AVG"
  | _ => none

/-- A `$group` stage: its output columns, what rows are grouped by, and the labels of the parts of
a key of several parts. -/
structure Group where
  columns : List Sql
  keys : List Sql
  labels : Option (List String)

/-- An expression as an output column. -/
def labelled (expression : Sql) (label : String) : Sql :=
  expression ++ Sql.text " AS " ++ Sql.name label

/-- The expression of one part of a key: a field, or a part of a date. -/
def keyPart (label : String) (part : Json) : Result Sql :=
  match part with
  | .str text => .ok (Sql.name (columnOfName text))
  | .obj [] => .error (.invalidQuery (.emptyGroupKey label))
  | .obj ((operator, reference) :: _) =>
    match datePart? operator with
    | none => .error (.invalidQuery (.groupOperator operator))
    | some unit => do
      pure (Sql.text ("EXTRACT(" ++ unit ++ " FROM ") ++ Sql.name (← column reference)
        ++ Sql.text " AT TIME ZONE 'UTC')::integer")
  | _ => .error (.invalidQuery (.groupKey label part))

/-- The parts of a key with their labels. -/
def keyParts (parts : Object) : Result (List (String × Sql)) :=
  parts.mapM fun (label, part) => do pure (label, ← keyPart label part)

/-- The group that a key makes, without accumulators. -/
def groupBy : Json → Result Group
  | .null => .ok ⟨[labelled (Sql.text "NULL") objectIdField], [], none⟩
  | .str text =>
    let key := Sql.name (columnOfName text)
    .ok ⟨[labelled key objectIdField], [key], none⟩
  | .obj parts => do
    let parts ← keyParts parts
    pure ⟨parts.map fun (label, key) => labelled key label, parts.map Prod.snd,
      some (parts.map Prod.fst)⟩
  | other => .error (.invalidQuery (.groupId other))

/-- The column of one accumulator; a sum of anything but a field counts the rows. -/
def accumulatorColumn (field operator : String) (reference : Json) : Result Sql :=
  match accumulator? operator with
  | none => .error (.invalidQuery (.accumulator operator))
  | some function =>
    if operator = "$sum" && reference.str?.isNone then
      .ok (labelled (Sql.text "COUNT(*)") field)
    else do
      pure (labelled (Sql.text (function ++ "(") ++ Sql.name (← column reference) ++ Sql.text ")")
        field)

/-- The columns of the accumulators of one output field. -/
def accumulatorColumns (field : String) (value : Json) : Result (List Sql) :=
  match value.obj? with
  | none => .error (.invalidQuery (.notAccumulator field))
  | some operators => operators.mapM fun (operator, reference) =>
    accumulatorColumn field operator reference

/-- The member of a `$group` stage that holds its key. -/
def groupKeyField : String := "_id"

/-- Reads a `$group` stage. -/
def groupOf (spec : Object) : Result Group :=
  match spec.get? groupKeyField with
  | none => .error (.invalidQuery .groupWithoutId)
  | some key => do
    let group ← groupBy key
    let columns ← (spec.erase groupKeyField).mapM fun (field, value) =>
      accumulatorColumns field value
    pure { group with columns := group.columns ++ columns.flatten }

/-- A row with the parts of its group key moved into one object under the object id. -/
def foldKey (row : Object) (labels : List String) : Object :=
  let (row, key) := labels.foldl (fun (row, key) label =>
    match Dict.get? row label with
    | some value => (Dict.erase row label, Dict.insert key label value)
    | none => (row, key)) (row, ([] : Object))
  Dict.insert row objectIdField (.obj key)

end ObjectStore.Aggregate
