import ObjectStore.Proofs.Query.Entrywise
import ObjectStore.Proofs.Query.Equality
import ObjectStore.Proofs.Sql.Truth

/-!
# One of some values, and none of them

A field that holds no arrays is compared with the values of a list by `IN` and by `NOT IN`, after
nulls were taken out of the list, as these stand for a field that holds nothing. No row is admitted
by both of `$in` and `$nin`. One of the two admits it, unless the field holds nothing and the list
has values but no null among them: then both comparisons are unknown. `$ne` admits also what holds
nothing, so it is what `$nin` is with the same value just where the field holds something
(`noneOf_complements_oneOf`).
-/

/-!
## What comparisons of a column come to

A column is seen here by what it equals: nothing at all, if it holds nothing, or some operands and
not the others (`Scalar`). So nothing is said of the types of columns, and of when two values of a
type are equal.

Where a column holds nothing, all comparisons are unknown, `NOT IN` as well as `IN`: the one is the
negation of the other. Only `IS NULL` and its negation are true or false there.
-/

namespace ObjectStore.Engine

/-- What a column holds: nothing, or what equals some operands and differs from all others. -/
abbrev Scalar := Option (Sql → Bool)

/-- A condition on one column. -/
inductive ScalarTest where
  | always
  | never
  | isNull
  | isNotNull
  | isIn (operands : List Sql)
  | notIn (operands : List Sql)
  | differs (operand : Sql)

namespace ScalarTest

/-- The operands in a list, up to its closing parenthesis. -/
def operands? : Sql → Option (List Sql)
  | [] => none
  | [.text ")"] => some [[]]
  | .text ", " :: rest => (operands? rest).map ([] :: ·)
  | token :: rest => (operands? rest).map (List.modifyHead (token :: ·))

/-- The condition that a clause puts on a column. -/
def read? (column : String) : Sql → Option ScalarTest
  | [.text "1 = 1"] => some .always
  | [.text "1 = 2"] => some .never
  | [.name named, .text " IS NULL"] => if named = column then some .isNull else none
  | [.name named, .text " IS NOT NULL"] => if named = column then some .isNotNull else none
  | .name named :: .text " IN " :: .text "(" :: list =>
    if named = column then (operands? list).map .isIn else none
  | .name named :: .text " NOT IN " :: .text "(" :: list =>
    if named = column then (operands? list).map .notIn else none
  | .name named :: .text " <> " :: operand =>
    if named = column then some (.differs operand) else none
  | _ => none

/-- What a condition comes to on what a column holds. -/
def on : ScalarTest → Scalar → Option Bool
  | .always, _ => some true
  | .never, _ => some false
  | .isNull, held => some held.isNone
  | .isNotNull, held => some held.isSome
  | .isIn operands, held => held.map operands.any
  | .notIn operands, held => Truth.not (held.map operands.any)
  | .differs operand, held => Truth.not (held.map fun equals => equals operand)

end ScalarTest

/-- What a clause comes to on a row with a column that holds something; clauses about other columns
are left to the row. -/
def truthAt (column : String) (held : Scalar) (rest : Valuation) : Valuation := fun sql =>
  match ScalarTest.read? column sql with
  | some test => test.on held
  | none => rest sql

/-- An operand has no mark of a list in it. -/
def IsOperand (sql : Sql) : Prop := ∀ token ∈ sql, token ≠ .text ", " ∧ token ≠ .text ")"

section Clauses

variable {name : String} {held : Scalar} {rest : Valuation} {sql operand : Sql}
  {operands : List Sql} {test : ScalarTest}

/-- A clause that puts a condition on the column comes to what the condition does. -/
theorem truthAt_eq (h : ScalarTest.read? name sql = some test) :
    truthAt name held rest sql = test.on held := by
  rw [truthAt, h]

namespace ScalarTest

/-! ## Lists of operands -/

/-- After a comma a new operand begins, with nothing in it yet. -/
theorem operands?_comma (sql : Sql) :
    operands? (Sql.text ", " ++ sql) = (operands? sql).map ([] :: ·) := rfl

/-- An operand goes before the first one of a list that has no comma after it yet. -/
theorem operands?_append (h : IsOperand operand) (sql : Sql) :
    operands? (operand ++ sql) = (operands? sql).map (List.modifyHead (operand ++ ·)) := by
  induction operand with
  | nil =>
    rw [List.nil_append]
    cases operands? sql with
    | none => rfl
    | some parts => cases parts <;> rfl
  | cons token operand ih =>
    have htoken := h token List.mem_cons_self
    rw [List.cons_append, operands?, ih fun t ht => h t (List.mem_cons_of_mem _ ht), Option.map_map]
    · congr 1
      funext parts
      cases parts <;> rfl
    · exact fun he _ => htoken.2 he
    · exact htoken.1

/-- Operands with commas between them are read back, up to the closing parenthesis. -/
theorem operands?_join (hne : operands ≠ []) (h : ∀ operand ∈ operands, IsOperand operand) :
    operands? (Sql.join ", " operands ++ Sql.text ")") = some operands := by
  induction operands with
  | nil => exact absurd rfl hne
  | cons operand others ih =>
    obtain ⟨hoperand, hothers⟩ := List.forall_mem_cons.mp h
    have hhead : operand ++ [] = operand := List.append_nil operand
    cases others with
    | nil =>
      rw [Sql.join, operands?_append hoperand]
      exact congrArg (fun first => some [first]) hhead
    | cons next others =>
      rw [Sql.join, List.append_assoc, List.append_assoc, operands?_append hoperand,
        operands?_comma, ih (List.cons_ne_nil _ _) hothers]
      exact congrArg (fun first => some (first :: next :: others)) hhead

/-! ## Clauses -/

theorem read?_isNull (name : String) :
    read? name (Sql.name name ++ Sql.text " IS NULL") = some .isNull := by
  show (if name = name then some ScalarTest.isNull else none) = some .isNull
  rw [if_pos rfl]

theorem read?_isNotNull (name : String) :
    read? name (Sql.name name ++ Sql.text " IS NOT NULL") = some .isNotNull := by
  show (if name = name then some ScalarTest.isNotNull else none) = some .isNotNull
  rw [if_pos rfl]

/-- A list behind `IN` is read with all its operands. -/
theorem read?_isIn (name : String) (hne : operands ≠ [])
    (h : ∀ operand ∈ operands, IsOperand operand) :
    read? name (Sql.name name ++ Sql.text " IN " ++ (Sql.join ", " operands).parens)
      = some (.isIn operands) := by
  have hlist := operands?_join hne h
  show (if name = name then
    (operands? (Sql.join ", " operands ++ Sql.text ")")).map isIn else none) = some (.isIn operands)
  rw [if_pos rfl, hlist, Option.map_some]

/-- A list behind `NOT IN` is read with all its operands. -/
theorem read?_notIn (name : String) (hne : operands ≠ [])
    (h : ∀ operand ∈ operands, IsOperand operand) :
    read? name (Sql.name name ++ Sql.text " NOT IN " ++ (Sql.join ", " operands).parens)
      = some (.notIn operands) := by
  have hlist := operands?_join hne h
  show (if name = name then
    (operands? (Sql.join ", " operands ++ Sql.text ")")).map notIn else none)
      = some (.notIn operands)
  rw [if_pos rfl, hlist, Option.map_some]

/-- What stands behind `<>` is the one operand, whatever it is. -/
theorem read?_differs (name : String) (operand : Sql) :
    read? name (Sql.name name ++ Sql.text " <> " ++ operand) = some (.differs operand) := by
  show (if name = name then some (ScalarTest.differs operand) else none) = some (.differs operand)
  rw [if_pos rfl]

end ScalarTest

end Clauses

end ObjectStore.Engine

namespace ObjectStore

open Engine

/-- A query for one of some values. -/
def Query.oneOf (name : String) (values : List Json) : Object :=
  [(name, .obj [("$in", .arr values)])]

/-- A query for none of some values. -/
def Query.noneOf (name : String) (values : List Json) : Object :=
  [(name, .obj [("$nin", .arr values)])]

/-- A query for anything other than a value. -/
def Query.otherThan (name : String) (value : Json) : Object := [(name, .obj [("$ne", value)])]

/-- What is compared with a column has no mark of a list in it. -/
theorem FieldType.isOperand_comparand (type : Option FieldType) (value : Json) :
    IsOperand (comparand type value) := by
  unfold comparand
  split
  · simp [IsOperand, Sql.bind, Sql.text]
  · split <;> simp [IsOperand, Sql.bind, Sql.bindJson, Sql.bindText, Sql.text]

namespace FieldRef

variable {f : FieldRef} {held : Scalar} {rest : Valuation} {values : List Json}

/-- A column holds something that equals one of some values; none of them is null. -/
def EqualsOneOf (f : FieldRef) (held : Scalar) (values : List Json) : Prop :=
  ∃ equals, held = some equals ∧ ∃ value ∈ values, value.isNull = false
    ∧ equals (FieldType.comparand f.type value) = true

/-- Nothing equals none of some values. -/
theorem not_equalsOneOf_none : ¬ f.EqualsOneOf none values := nofun

/-- A column that holds something equals one of some values if it equals an operand that is written
for one of them other than null. -/
theorem equalsOneOf_some {equals : Sql → Bool} : f.EqualsOneOf (some equals) values ↔
    ((values.filter fun value => !value.isNull).map (FieldType.comparand f.type)).any equals
      = true := by
  simp [EqualsOneOf]

/-- There are no values if there is neither null nor another one. -/
theorem eq_nil_iff_no_members (values : List Json) : values = [] ↔
    (values.filter fun value => !value.isNull) = [] ∧ values.any Json.isNull = false := by
  cases values with
  | nil => simp
  | cons value rest => cases hnull : value.isNull <;> simp [hnull]

section Clauses

variable (hpath : f.isPath = false)
include hpath

/-- `IS NULL` is true just if the column holds nothing. -/
theorem truth_isNull_at : f.isNull.truth (truthAt f.name held rest) = some held.isNone := by
  rw [isNull, column, hpath, Predicate.truth_clause]
  exact truthAt_eq (ScalarTest.read?_isNull f.name)

/-- `IS NOT NULL` is true just if the column holds something. -/
theorem truth_isNotNull_at : f.isNotNull.truth (truthAt f.name held rest) = some held.isSome := by
  rw [isNotNull, column, hpath, Predicate.truth_clause]
  exact truthAt_eq (ScalarTest.read?_isNotNull f.name)

/-- `IN` is unknown where the column holds nothing. -/
theorem truth_listIn (hne : values ≠ []) :
    (f.listClause "IN" values).truth (truthAt f.name held rest)
      = held.map (values.map (FieldType.comparand f.type)).any := by
  rw [listClause, compareWith, column, hpath, Predicate.truth_clause]
  exact truthAt_eq (ScalarTest.read?_isIn f.name (mt List.map_eq_nil_iff.mp hne)
    (List.forall_mem_map.mpr fun value _ => FieldType.isOperand_comparand f.type value))

/-- `NOT IN` is unknown as well where the column holds nothing. -/
theorem truth_listNotIn (hne : values ≠ []) :
    (f.listClause "NOT IN" values).truth (truthAt f.name held rest)
      = Truth.not (held.map (values.map (FieldType.comparand f.type)).any) := by
  rw [listClause, compareWith, column, hpath, Predicate.truth_clause]
  exact truthAt_eq (ScalarTest.read?_notIn f.name (mt List.map_eq_nil_iff.mp hne)
    (List.forall_mem_map.mpr fun value _ => FieldType.isOperand_comparand f.type value))

/-- `<>` is unknown where the column holds nothing. -/
theorem truth_compareDiffers (value : Json) :
    (f.compareValue "<>" value).truth (truthAt f.name held rest)
      = Truth.not (held.map fun equals => equals (FieldType.comparand f.type value)) := by
  rw [compareValue, hpath, if_neg Bool.false_ne_true, compareWith, column, hpath,
    Predicate.truth_clause]
  exact truthAt_eq (ScalarTest.read?_differs f.name _)

/-- A field is one of some values if it equals one of them, or if it holds nothing and null is among
them. -/
theorem truth_scalarIsIn_iff :
    (f.scalarIsIn values).truth (truthAt f.name held rest) = some true ↔
      f.EqualsOneOf held values ∨ held = none ∧ values.any Json.isNull = true := by
  have hnever : (Predicate.clause (Sql.text "1 = 2")).truth (truthAt f.name held rest)
      = some false := Predicate.truth_clause _
  unfold scalarIsIn
  cases hmembers : values.filter fun value => !value.isNull with
  | nil =>
    -- there is nothing to compare with
    cases held <;> cases hnull : values.any Json.isNull <;>
      simp [hnever, truth_isNull_at hpath, not_equalsOneOf_none, equalsOneOf_some, hmembers]
  | cons value others =>
    have hin : (f.listClause "IN" (value :: others)).truth (truthAt f.name held rest) = _ :=
      truth_listIn hpath (List.cons_ne_nil value others)
    cases held <;> cases hnull : values.any Json.isNull <;>
      simp [Predicate.truth_any_eq_true, truth_isNull_at hpath, hin, not_equalsOneOf_none,
        equalsOneOf_some, hmembers]

/-- A field is none of some values if it holds something that equals none of them, or if it holds
nothing and there are none. -/
theorem truth_scalarNotIn_iff :
    (f.scalarNotIn values).truth (truthAt f.name held rest) = some true ↔
      ¬ f.EqualsOneOf held values ∧ (held = none → values = []) := by
  have halways : (Predicate.clause (Sql.text "1 = 1")).truth (truthAt f.name held rest)
      = some true := Predicate.truth_clause _
  have hempty := eq_nil_iff_no_members values
  unfold scalarNotIn
  cases hmembers : values.filter fun value => !value.isNull with
  | nil =>
    cases held <;> cases hnull : values.any Json.isNull <;>
      simp [halways, truth_isNotNull_at hpath, not_equalsOneOf_none, equalsOneOf_some, hmembers,
        hempty, hnull]
  | cons value others =>
    have hnotIn : (f.listClause "NOT IN" (value :: others)).truth (truthAt f.name held rest) = _ :=
      truth_listNotIn hpath (List.cons_ne_nil value others)
    cases held <;>
      simp [hnotIn, Truth.not, not_equalsOneOf_none, equalsOneOf_some, hmembers, hempty]

/-- A field differs from a value if it holds something that does not equal it, or if it holds
nothing. -/
theorem truth_otherThan_iff {value : Json} (hnull : value.isNull = false) :
    (Predicate.any [f.compareValue "<>" value, f.isNull]).truth (truthAt f.name held rest)
      = some true ↔ ¬ f.EqualsOneOf held [value] := by
  cases held <;>
    simp [Predicate.truth_any_eq_true, truth_isNull_at hpath, truth_compareDiffers hpath, Truth.not,
      not_equalsOneOf_none, equalsOneOf_some, hnull]

end Clauses

end FieldRef

namespace Compiler

/-- A name stands for a field that holds single values: it joins no branches, it leads nowhere into
a field, and the field holds no arrays. -/
structure IsSingle (c : Compiler) (name : String) : Prop where
  key : Combinator.ofKey? name = none
  path : Text.contains name "." = false
  array : (c.fieldRef name).isArray = false

variable {c : Compiler} {name : String} {value : Json} {values : List Json} {held : Scalar}
  {rest : Valuation}

/-- A query of one field compiles if the field does. -/
theorem compiles_field {out : Compiled} (hkey : Combinator.ofKey? name = none)
    (h : c.compileField name value = .ok out) : c.Compiles [(name, value)] := by
  refine compiles_iff.mpr (List.forall_mem_singleton.mpr ⟨out, ?_⟩)
  rw [compileEntry, hkey, h]

section IsSingle

variable (hsingle : c.IsSingle name)
include hsingle

/-- A query for one of some values is compiled with the values of inner lists among them. -/
theorem compileField_oneOf (values : List Json) :
    c.compileField name (.obj [("$in", .arr values)])
      = .ok (.ofPredicate ((c.fieldRef name).scalarIsIn (FieldRef.flatten values))) := by
  have hpath : (c.fieldRef name).isPath = false := hsingle.path
  have hread : Constraint.ofJson (.obj [("$in", .arr values)])
      = .ok (.operators [.isIn values]) := rfl
  refine compileField_operator (asksNothing_eq_false rfl) hread ?_
  simp [FieldRef.compileOperator, FieldRef.isIn, hsingle.array, hpath]

/-- A query for none of some values is compiled with the values of inner lists among them. -/
theorem compileField_noneOf (values : List Json) :
    c.compileField name (.obj [("$nin", .arr values)])
      = .ok (.ofPredicate ((c.fieldRef name).scalarNotIn (FieldRef.flatten values))) := by
  have hpath : (c.fieldRef name).isPath = false := hsingle.path
  have hread : Constraint.ofJson (.obj [("$nin", .arr values)])
      = .ok (.operators [.notIn values]) := rfl
  refine compileField_operator (asksNothing_eq_false rfl) hread ?_
  simp [FieldRef.compileOperator, FieldRef.notIn, hsingle.array, hpath]

/-- A query for anything other than a value also asks for what holds nothing. -/
theorem compileField_otherThan (hscalar : value.isScalar = true) (hnull : value.isNull = false) :
    c.compileField name (.obj [("$ne", value)]) = .ok (.ofPredicate
      (.any [(c.fieldRef name).compareValue "<>" value, (c.fieldRef name).isNull])) := by
  have hpoint : GeoPoint.ofJson? value = none := by cases value <;> first | rfl | cases hscalar
  have hread : Constraint.ofJson (.obj [("$ne", value)]) = .ok (.operators [.notEqual value]) := rfl
  refine compileField_operator (asksNothing_eq_false rfl) hread ?_
  simp [FieldRef.compileOperator, FieldRef.differs, hnull, hsingle.array, hpoint,
    FieldRef.refuseRelativeTime_scalar hscalar, bind, Except.bind, Except.map, pure, Except.pure]

/-- A row is one of some values if its field equals one of them, or if it holds nothing and null is
among them. -/
theorem admits_oneOf_iff : c.Admits (truthAt name held rest) (Query.oneOf name values) ↔
    (c.fieldRef name).EqualsOneOf held (FieldRef.flatten values)
      ∨ held = none ∧ (FieldRef.flatten values).any Json.isNull = true := by
  rw [Query.oneOf, admits_field_iff hsingle.key (compileField_oneOf hsingle values)]
  exact FieldRef.truth_scalarIsIn_iff (f := c.fieldRef name) hsingle.path

/-- A row is none of some values if its field holds something that equals none of them, or if it
holds nothing and there are none. -/
theorem admits_noneOf_iff : c.Admits (truthAt name held rest) (Query.noneOf name values) ↔
    ¬ (c.fieldRef name).EqualsOneOf held (FieldRef.flatten values)
      ∧ (held = none → FieldRef.flatten values = []) := by
  rw [Query.noneOf, admits_field_iff hsingle.key (compileField_noneOf hsingle values)]
  exact FieldRef.truth_scalarNotIn_iff (f := c.fieldRef name) hsingle.path

/-- A row is other than a value unless its field equals the value. -/
theorem admits_otherThan_iff (hscalar : value.isScalar = true) (hnull : value.isNull = false) :
    c.Admits (truthAt name held rest) (Query.otherThan name value) ↔
      ¬ (c.fieldRef name).EqualsOneOf held [value] := by
  rw [Query.otherThan, admits_field_iff hsingle.key (compileField_otherThan hsingle hscalar hnull)]
  exact FieldRef.truth_otherThan_iff (f := c.fieldRef name) hsingle.path hnull

end IsSingle

/-- Queries for one of some values and for none of them compile, and no row is admitted by both; a
row is admitted by neither just if the field holds nothing, and there are values but no null among
them. A query for none of one value that is not null, and one for anything other than this value,
compile, and they agree on a row just if the field holds something. -/
theorem noneOf_complements_oneOf (c : Compiler) (name : String) (hsingle : c.IsSingle name) :
    (∀ values, c.Compiles (Query.oneOf name values) ∧ c.Compiles (Query.noneOf name values)
      ∧ ∀ held rest,
        ¬ (c.Admits (truthAt name held rest) (Query.oneOf name values)
          ∧ c.Admits (truthAt name held rest) (Query.noneOf name values))
        ∧ (¬ c.Admits (truthAt name held rest) (Query.oneOf name values)
            ∧ ¬ c.Admits (truthAt name held rest) (Query.noneOf name values)
          ↔ held = none ∧ FieldRef.flatten values ≠ []
            ∧ (FieldRef.flatten values).any Json.isNull = false))
    ∧ ∀ value : Json, value.isScalar = true → value.isNull = false →
      c.Compiles (Query.noneOf name [value]) ∧ c.Compiles (Query.otherThan name value)
        ∧ ∀ held rest, ((c.Admits (truthAt name held rest) (Query.noneOf name [value])
            ↔ c.Admits (truthAt name held rest) (Query.otherThan name value))
          ↔ held.isSome = true) := by
  constructor
  · intro values
    have hone := compiles_field hsingle.key (compileField_oneOf hsingle values)
    have hnone := compiles_field hsingle.key (compileField_noneOf hsingle values)
    refine ⟨hone, hnone, ?_⟩
    intro held rest
    rw [admits_oneOf_iff hsingle, admits_noneOf_iff hsingle]
    cases held with
    | none =>
      -- where null is among the values, there are some
      have hmembers := FieldRef.eq_nil_iff_no_members (FieldRef.flatten values)
      cases hnull : (FieldRef.flatten values).any Json.isNull <;>
        simp_all [FieldRef.not_equalsOneOf_none]
    | some equals => simp
  · intro value hscalar hnull
    have hnone := compiles_field hsingle.key (compileField_noneOf hsingle [value])
    have hother := compiles_field hsingle.key (compileField_otherThan hsingle hscalar hnull)
    refine ⟨hnone, hother, ?_⟩
    intro held rest
    have hflat : FieldRef.flatten [value] = [value] := by
      cases value <;> first | rfl | cases hscalar
    rw [admits_noneOf_iff hsingle, admits_otherThan_iff hsingle hscalar hnull, hflat]
    cases held <;> simp [FieldRef.not_equalsOneOf_none]

/-- People who have a name. -/
def named : Compiler :=
  .ofSchema ((Schema.ofClass "Person").withField "name" .string) false ⟨0, 0⟩

theorem isSingle_name : named.IsSingle "name" := ⟨rfl, by decide, rfl⟩

/-- Null in an inner list counts, so every row is admitted by one of the two queries and not by the
other; a name that is there is no `b` if it is other than `b`. -/
theorem nestedNull_complements :
    named.IsSingle "name" ∧ Json.isScalar (.str "b") = true ∧ Json.isNull (.str "b") = false
      ∧ (∀ held rest,
        named.Admits (truthAt "name" held rest)
            (Query.noneOf "name" [.str "a", .arr [.str "b", .null]])
          ↔ ¬ named.Admits (truthAt "name" held rest)
            (Query.oneOf "name" [.str "a", .arr [.str "b", .null]]))
      ∧ ∀ equals rest,
        named.Admits (truthAt "name" (some equals) rest) (Query.noneOf "name" [.str "b"])
          ↔ named.Admits (truthAt "name" (some equals) rest)
            (Query.otherThan "name" (.str "b")) := by
  obtain ⟨hlists, hone⟩ := noneOf_complements_oneOf named "name" isSingle_name
  refine ⟨isSingle_name, rfl, rfl, ?_, ?_⟩
  · intro held rest
    obtain ⟨-, -, hrows⟩ := hlists [.str "a", .arr [.str "b", .null]]
    obtain ⟨hboth, hneither⟩ := hrows held rest
    constructor
    · intro hnone hin
      exact hboth ⟨hin, hnone⟩
    · intro hin
      by_contra hnone
      obtain ⟨-, -, hnull⟩ := hneither.mp ⟨hin, hnone⟩
      exact nomatch hnull
  · intro equals rest
    obtain ⟨-, -, hrows⟩ := hone (.str "b") rfl rfl
    exact (hrows (some equals) rest).mpr rfl

/-- A person without a name is neither among those named `a` nor among those not named so, but is
among those whose name is other than `a`. -/
theorem nameless_left_out :
    ¬ (named.Admits (truthAt "name" none fun _ => none) (Query.noneOf "name" [.str "a"])
        ↔ ¬ named.Admits (truthAt "name" none fun _ => none) (Query.oneOf "name" [.str "a"]))
      ∧ ¬ (named.Admits (truthAt "name" none fun _ => none) (Query.noneOf "name" [.str "a"])
        ↔ named.Admits (truthAt "name" none fun _ => none)
          (Query.otherThan "name" (.str "a"))) := by
  rw [admits_noneOf_iff isSingle_name, admits_oneOf_iff isSingle_name,
    admits_otherThan_iff isSingle_name rfl rfl]
  simp [FieldRef.not_equalsOneOf_none, FieldRef.flatten, Json.isNull]

end Compiler

end ObjectStore
