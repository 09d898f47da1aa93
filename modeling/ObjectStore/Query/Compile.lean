import ObjectStore.Query.FieldRef

/-!
# Queries as predicates

A query is compiled against the storage schema of a class. Each field gives a predicate for every
operator that its constraint holds, and `$and`, `$or` and `$nor` join the predicates of their
branches; what asks nothing gives nothing.
-/

namespace ObjectStore

/-- What queries are compiled against. -/
structure Compiler where
  schema : Schema
  ignoreCase : Bool
  now : Timestamp

namespace Compiler

/-- The compiler for the stored form of a class. -/
def ofSchema (schema : Schema) (ignoreCase : Bool) (now : Timestamp) : Compiler :=
  ⟨schema.forStorage, ignoreCase, now⟩

/-- The first part of a dotted name. -/
def root (name : String) : String := (Text.split '.' name).headD name

/-- A field as a query names it. -/
def fieldRef (c : Compiler) (name : String) : FieldRef :=
  let isPath := Text.contains name "."
  ⟨name, if isPath then none else c.schema.field? name, isPath⟩

/-- A number that no column holds, compared with in place of a flag. -/
def unmatchable : Float := 9223372036854775808.0

/-- Whether a field is compared without regard to case. -/
def ignoresCaseOf (c : Compiler) (name : String) : Bool :=
  c.ignoreCase && (name = "username" || name = "email")

/-- The field equals a bare value. -/
def equalsScalar (f : FieldRef) (value : Json) (operand : Sql) : Predicate :=
  if f.isPath then f.compareWith "=" (Sql.bindText value.textForm ++ Sql.text "::text")
  else f.compareWith "=" operand

/-- The field equals a text. -/
def equalsText (c : Compiler) (f : FieldRef) (s : String) : Predicate :=
  if c.ignoresCaseOf f.name then
    .clause (Sql.text "LOWER(" ++ f.column ++ Sql.text ") = LOWER(" ++ Sql.bindText s
      ++ Sql.text ")")
  else equalsScalar f (.str s) (FieldType.comparand f.type (.str s))

/-- The field equals a flag; a number never does. -/
def equalsFlag (f : FieldRef) (flag : Bool) : Predicate :=
  equalsScalar f (.bool flag)
    (Sql.bind (if f.type = some .number then .double unmatchable else .bool flag))

/-- What a constraint asks of a field that it is written for as `value`. -/
def compileConstraint (c : Compiler) (f : FieldRef) (value : Json) :
    Constraint → Result Compiled
  | .null => .ok (.ofPredicate f.isNull)
  | .text s => .ok (.ofPredicate (c.equalsText f s))
  | .flag b => .ok (.ofPredicate (equalsFlag f b))
  | .number _ => .ok (.ofPredicate (equalsScalar f value (FieldType.comparand f.type value)))
  | .operators list => do pure (.concat (← list.mapM (f.compileOperator c.now)))

/-- Whether a constraint asks only that a field be absent that the class does not have. -/
def asksNothing (c : Compiler) (name : String) (value : Json) : Bool :=
  !c.schema.hasField (root name) && value.get? "$exists" == some (.bool false)

/-- What a query asks of a field; a constraint must ask something. -/
def compileField (c : Compiler) (name : String) (value : Json) : Result Compiled :=
  if c.asksNothing name value then .ok {}
  else do
    let compiled ← c.compileConstraint (c.fieldRef name) value (← Constraint.ofJson value)
    if compiled.predicates.isEmpty then throw (.operationForbidden (.queryShape name value))
    pure compiled

end Compiler

/-- What joins the branches of a query. -/
inductive Combinator where
  | or
  | and
  | nor
  deriving Repr, DecidableEq

namespace Combinator

/-- The key of a combinator. -/
def key : Combinator → String
  | .or => "$or"
  | .and => "$and"
  | .nor => "$nor"

/-- The combinator of a key. -/
def ofKey? : String → Option Combinator
  | "$or" => some .or
  | "$and" => some .and
  | "$nor" => some .nor
  | _ => none

/-- The predicate that joins those of the branches. -/
def join? : Combinator → List Predicate → Option Predicate
  | .or, branches => Predicate.any? branches
  | .and, branches => Predicate.all? branches
  | .nor, branches => (Predicate.any? branches).map .not

end Combinator

namespace Compiler

mutual

/-- What the entries of a query ask for, all together. -/
def compileEntries (c : Compiler) : List (String × Json) → Result Compiled
  | [] => .ok {}
  | (key, value) :: rest => do
    let first ← match Combinator.ofKey? key with
      | some combinator => c.compileClause combinator value
      | none => c.compileField key value
    pure (first ++ (← c.compileEntries rest))

/-- What a combinator asks for: each branch that asks something takes part. -/
def compileClause (c : Compiler) (combinator : Combinator) : Json → Result Compiled
  | .arr branches => do
    let compiled ← c.compileBranches combinator branches
    pure ⟨(combinator.join? compiled.predicates).toList, compiled.sorts⟩
  | _ => .error (.invalidQuery (.clauseNotArray combinator.key))

/-- What each branch of a combinator asks for, as one predicate. -/
def compileBranches (c : Compiler) (combinator : Combinator) : List Json → Result Compiled
  | [] => .ok {}
  | .obj fields :: rest => do
    let branch ← c.compileEntries fields
    pure (⟨(Predicate.all? branch.predicates).toList, branch.sorts⟩
      ++ (← c.compileBranches combinator rest))
  | _ :: _ => .error (.invalidQuery (.clauseBranchNotObject combinator.key))

end

end Compiler

/-!
## Filters

A compiled query as a statement uses it: one predicate, or none if every row is kept, and the sort
clauses. Their placeholders are numbered one after another, the predicate's first.
-/

/-- What a statement on rows filters and sorts by. -/
structure Filter where
  predicate : Option Predicate
  sorts : List Sql

namespace Filter

/-- The filter of a query. -/
def ofQuery (c : Compiler) (query : Object) : Result Filter := do
  let compiled ← c.compileEntries query
  pure ⟨Predicate.all? compiled.predicates, compiled.sorts⟩

/-- The fragment of the predicate. -/
def sql (f : Filter) : Sql := (f.predicate.map Predicate.sql).getD []

/-- The predicate and the sort clauses, which take their numbers in this order. -/
def allSql (f : Filter) : Sql := f.sql ++ f.sorts.flatten

/-- The number that comes after those of the filter. -/
def next (f : Filter) (index : Nat) : Nat := index + f.allSql.bindCount

/-- The marks of the predicate; none if the filter keeps all rows. -/
def marks (f : Filter) (index : Nat) : List Mark := f.sql.number index

/-- The marks of fragments that are numbered one after another. -/
def numberEach (index : Nat) : List Sql → List (List Mark)
  | [] => []
  | sql :: rest => sql.number index :: numberEach (index + sql.bindCount) rest

/-- The marks of the sort clauses. -/
def sortMarks (f : Filter) (index : Nat) : List (List Mark) :=
  numberEach (index + f.sql.bindCount) f.sorts

/-- The values of the predicate and of the sort clauses. -/
def params (f : Filter) : List Param := f.allSql.params

end Filter

/-- What a statement takes from a filter: its condition, the values, the sort clauses and the number
that comes next. -/
structure WhereClause (α : Type) where
  pattern : α
  values : List Param
  sorts : List α
  next : Nat

/-- Writes the condition of a filter and then its sort clauses with one writer. -/
def Filter.write (f : Filter) (index : Nat) : WhereClause String :=
  let (pattern, w) := (Writer.startingAt index).renderCondition f.predicate
  let (sorts, w) := w.renderEach f.sorts
  { pattern, values := w.values, sorts, next := w.next }

/-- Compiles a query and writes the filter with placeholders that are numbered from `index`. -/
def Compiler.buildWhereClause (c : Compiler) (query : Object) (index : Nat) :
    Result (WhereClause String) := do
  let f ← Filter.ofQuery c query
  return f.write index

/-- The rank of a full-text search, as a column named `score`. -/
def TextSearch.rank (search : TextSearch) (field : String) : Sql :=
  Sql.text "ts_rank_cd(to_tsvector(" ++ Sql.bindText search.language ++ Sql.text "::regconfig, "
    ++ Sql.name field ++ Sql.text "), to_tsquery(" ++ Sql.bindText search.language
    ++ Sql.text "::regconfig, " ++ Sql.bindText search.term ++ Sql.text "), 32) AS \"score\""

/-- The full-text search among some operators. -/
def Operator.search? : Operator → Option TextSearch
  | .matchesText search => some search
  | _ => none

/-- The rank of the first full-text search that a query asks for outside of its branches. -/
def textRank? : Object → Result (Option Sql)
  | [] => .ok none
  | (field, value) :: rest =>
    if (value.get? "$text").isNone then textRank? rest
    else do
      match ← Constraint.ofJson value with
      | .operators list =>
        match list.findSome? Operator.search? with
        | some search => pure (some (search.rank field))
        | none => textRank? rest
      | _ => textRank? rest

end ObjectStore
