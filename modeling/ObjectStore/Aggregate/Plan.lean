import ObjectStore.Aggregate.Group
import ObjectStore.Query.Compile

/-!
# Aggregation pipelines

A pipeline over one class becomes one statement: the conditions of all `$match` stages together,
the last `$group`, all projected columns and sort keys, and the last limit and offset.
-/

namespace ObjectStore.Aggregate

/-- What the stages of a pipeline read so far ask for. -/
structure Plan where
  conditions : List Predicate := []
  columns : List String := []
  group : Option Group := none
  sorting : List Sql := []
  limit : Option Int64 := none
  offset : Option Int64 := none

/-- The specification of a stage that must be an object. -/
def specification (stage : String) (value : Json) : Result Object :=
  match value.obj? with
  | some spec => .ok spec
  | none => .error (.invalidQuery (.stageNotObject stage))

/-- The number of a stage that counts rows. -/
def rowCount (stage : String) (value : Json) : Result Int64 :=
  match value with
  | .int n =>
    if 0 ≤ n ∧ n ≤ Int64.maxValue.toInt then .ok (Int64.ofInt n)
    else .error (.invalidQuery (.stageCount stage))
  | _ => .error (.invalidQuery (.stageCount stage))

/-- Whether a `$project` stage takes a field in. -/
def isIncluded (value : Json) : Bool := value == .int 1 || value == .bool true

/-- A member of a `$sort` stage as a sort clause. -/
def sortClause (field : String) (direction : Json) : Result Sql :=
  match direction with
  | .int 1 => .ok (Sql.name (columnOfName field) ++ Sql.text " ASC")
  | .int (-1) => .ok (Sql.name (columnOfName field) ++ Sql.text " DESC")
  | _ => .error (.invalidQuery (.sortDirection field))

namespace Plan

/-- The plan with one more stage. -/
def addStage (compiler : Compiler) (plan : Plan) (stage : String) (value : Json) : Result Plan :=
  match stage with
  | "$match" => do
    let filter ← Filter.ofQuery compiler (← specification stage value)
    pure { plan with conditions := plan.conditions ++ filter.predicate.toList }
  | "$group" => do pure { plan with group := some (← groupOf (← specification stage value)) }
  | "$project" => do
    let included := (← specification stage value).filter fun member => isIncluded member.2
    pure { plan with columns := plan.columns ++ included.map fun member => columnOfName member.1 }
  | "$sort" => do
    let clauses ← (← specification stage value).mapM fun (field, direction) =>
      sortClause field direction
    pure { plan with sorting := plan.sorting ++ clauses }
  | "$limit" => do pure { plan with limit := some (← rowCount stage value) }
  | "$skip" => do pure { plan with offset := some (← rowCount stage value) }
  | other => .error (.invalidQuery (.unknownStage other))

/-- The plan with one more stage, which must have exactly one operator. -/
def addDocument (compiler : Compiler) (plan : Plan) : Json → Result Plan
  | .obj [(stage, value)] => plan.addStage compiler stage value
  | _ => .error (.invalidQuery .stageShape)

/-- The plan of a pipeline. -/
def ofPipeline (compiler : Compiler) (pipeline : List Json) : Result Plan :=
  pipeline.foldlM (addDocument compiler) {}

/-- The output columns. -/
def output (plan : Plan) : Sql :=
  match plan.group with
  | some group => Sql.join ", " group.columns
  | none => if plan.columns.isEmpty then Sql.text "*" else Sql.join ", " (plan.columns.map Sql.name)

/-- A clause of a statement that is left out if it would be empty. -/
def clauseUnlessEmpty (word : String) (parts : List Sql) : Sql :=
  if parts.isEmpty then [] else Sql.text word ++ Sql.join ", " parts

/-- A clause with a bound number of rows. -/
def countClause (word : String) : Option Int64 → Sql
  | some n => Sql.text word ++ Sql.bind (.integer n)
  | none => []

/-- The condition on rows. -/
def condition (plan : Plan) : Option Predicate := Predicate.all? plan.conditions

/-- The statement of a plan, with every row as one JSON record. -/
def sql (plan : Plan) (className : String) : Sql :=
  Sql.text "SELECT row_to_json(a) AS \"_row\" FROM (SELECT " ++ plan.output ++ Sql.text " FROM "
    ++ Sql.name className
    ++ (match plan.condition with
      | some predicate => Sql.text " WHERE " ++ predicate.sql
      | none => [])
    ++ clauseUnlessEmpty " GROUP BY " ((plan.group.map Group.keys).getD [])
    ++ clauseUnlessEmpty " ORDER BY " plan.sorting
    ++ countClause " LIMIT " plan.limit ++ countClause " OFFSET " plan.offset
    ++ Sql.text ") AS a"

/-- The labels of the parts of the group key, if it has several parts. -/
def labels (plan : Plan) : Option (List String) := plan.group.bind Group.labels

end Plan

end ObjectStore.Aggregate
