import ObjectStore.Engine.Session
import ObjectStore.Objects.Options
import ObjectStore.Query.Compile
import ObjectStore.Value.Decode

/-!
# Reading objects

Searching, counting, listing distinct values and aggregating the rows of a class. A class without a
table has no objects.
-/

namespace ObjectStore.Projection

/-!
## Projections

The columns that a search returns when it asks for some keys only. The id and the timestamps always
come along; relations and unknown fields have no column; a dotted key takes its whole column.
-/

/-- The key that stands for the rank of a full-text search. -/
def scoreKey : String := "$score"

/-- The columns with those of one more key. -/
def addKey (s : Schema) (columns : List String) (key : String) : List String :=
  if key = aclField then columns ++ [readColumn, writeColumn]
  else if key = scoreKey then columns
  else
    let root := Compiler.root key
    match s.field? root with
    | none => columns
    | some type =>
      if type.isRelation || columns.contains root then columns else columns ++ [root]

/-- The columns of the fields that every object has, as far as the keys do not name them. -/
def alwaysIncluded (s : Schema) (keys : List String) : List String :=
  [objectIdField, createdAtField, updatedAtField].filter fun field =>
    s.hasField field && !keys.contains field

/-- The columns of some keys. -/
def columns (s : Schema) (keys : List String) : List String :=
  keys.foldl (addKey s) [] ++ alwaysIncluded s keys

/-- The columns of some keys, and the rank of the search if there is one, as a fragment. -/
def ofKeys (s : Schema) (keys : List String) (rank : Option Sql) : Sql :=
  Sql.join ", " ((columns s.forStorage keys).map Sql.name ++ rank.toList)

/-- What a search returns: everything, unless it asks for some keys. -/
def sql (s : Schema) (query : Object) : Option (List String) → Result Sql
  | none | some [] => .ok (Sql.text "*")
  | some keys => do
    let rank ← if keys.contains scoreKey then textRank? query else .ok none
    pure (ofKeys s keys rank)

end ObjectStore.Projection

/-! ## Reads -/

namespace ObjectStore.Objects

/-- The filter of a query on a class, at the current time. -/
def filterOf (schema : Schema) (query : Object) (ignoreCase : Bool) : Work Filter := do
  Work.ofResult (Filter.ofQuery (Compiler.ofSchema schema ignoreCase (← Work.now)) query)

/-- A number of rows as the engine takes it. -/
def rowCount (n : UInt64) : Int64 := Int64.ofInt n.toNat

/-- Decodes rows that carry objects of a class. -/
def decodeRows (schema : Schema) (rows : List Row) : Result (List Object) :=
  rows.mapM fun row => do schema.decodeRow (← row.toRecord)

/-- Searches the objects of a class. -/
def find (settings : Settings) (className : String) (schema : Schema) (query : Object)
    (options : FindOptions) : Work (List Object) := do
  let filter ← filterOf schema query (options.ignoreCase || settings.ignoresCase)
  let columns ← Work.ofResult (Projection.sql schema query options.keys)
  let action := RowAction.find columns (options.sort.map SortKey.sql)
    (options.limit.map rowCount) (options.skip.map rowCount)
  let rows ← (Work.query (.rows ⟨className, filter, action⟩)).orIfUndefined []
  Work.ofResult (decodeRows schema rows)

/-- The number of rows that a row with an estimate tells. -/
def estimateOf (row : Row) : Option Nat :=
  ((row.real? "approximate_row_count").filter fun x => 0.0 ≤ x).map fun x => x.toUInt64.toNat

/-- The planner's estimate of the number of rows of a class. -/
def estimate (className : String) : Work (Option Nat) := do
  let rows ← Work.query (.metadata (.rowEstimate className))
  pure (rows.head?.bind estimateOf)

/-- The number that a row with a count tells. -/
def countOf : List Row → Result Nat
  | [] => .ok 0
  | row :: _ => do pure (← row.integer "count").toInt.toNat

/-- Counts the objects that a filter keeps. -/
def countExactly (className : String) (filter : Filter) : Work Nat := do
  let rows ← (Work.query (.rows ⟨className, filter, .count⟩)).orIfUndefined []
  Work.ofResult (countOf rows)

/-- Counts the objects of a class; for all objects together an estimate may do. -/
def count (settings : Settings) (className : String) (schema : Schema) (query : Object)
    (mayEstimate : Bool) : Work Nat := do
  let filter ← filterOf schema query false
  if filter.predicate.isNone && mayEstimate && settings.estimatesCounts then
    match ← estimate className with
    | some n => pure n
    | none => countExactly className filter
  else countExactly className filter

/-- The type of a field as a whole, none for a path. -/
def wholeType (schema : Schema) (field : String) : Option FieldType :=
  if Text.contains field "." then none else schema.field? field

/-- The values of a field: those of a column, the elements of an array, or what lies at the end of a
path. -/
def valueSource (schema : Schema) (field : String) : Sql :=
  if Text.contains field "." then Sql.path field false
  else
    let type := wholeType schema field
    match type.bind FieldType.column? with
    | some .textArray => Sql.text "unnest(" ++ Sql.name field ++ Sql.text ")"
    | some .json =>
      if type.any FieldType.isArray then
        Sql.text "jsonb_array_elements(" ++ Sql.name field ++ Sql.text ")"
      else Sql.name field
    | _ => Sql.name field

/-- The value that a row of distinct values carries, if any. -/
def decodeValue (schema : Schema) (field : String) (row : Row) : Result (Option Json) :=
  match row.json? "_value" with
  | none => .ok none
  | some stored =>
    match (wholeType schema field).filter fun type => !type.isArray with
    | some type => type.decode field stored
    | none => .ok (if stored.isNull then none else some stored)

/-- The distinct values of a field among the objects of a class. -/
def distinct (className : String) (schema : Schema) (query : Object) (field : String) :
    Work (List Json) := do
  let filter ← filterOf schema query false
  let rows ← (Work.query
      (.rows ⟨className, filter, .distinct (valueSource schema field)⟩)).recover fun e =>
    if e.isUndefinedTable || e.isState .undefinedColumn then pure [] else throw e
  let values ← Work.ofResult (rows.mapM (decodeValue schema field))
  pure (values.filterMap id)

/-- The object that a row of a pipeline stands for. -/
def shapeRow (schema : Schema) (plan : Aggregate.Plan) (row : Row) : Result Object := do
  let record ← row.toRecord
  match plan.labels with
  | some labels => pure (Aggregate.foldKey record labels)
  | none => if plan.group.isSome then pure record else schema.decodeRow record

/-- Runs a pipeline over the objects of a class. -/
def aggregate (className : String) (schema : Schema) (pipeline : List Json) :
    Work (List Object) := do
  let compiler := Compiler.ofSchema schema false (← Work.now)
  let plan ← Work.ofResult (Aggregate.Plan.ofPipeline compiler pipeline)
  let rows ← (Work.query (.aggregate className plan)).orIfUndefined []
  Work.ofResult (rows.mapM (shapeRow schema plan))

end ObjectStore.Objects
