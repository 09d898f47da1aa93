import ObjectStore.Proofs.Result
import ObjectStore.Proofs.Sql.Truth
import ObjectStore.Query.Compile

/-!
# Which rows a query admits

A compiled query holds on a row where all its predicates are true. The compiler walks the entries
of a query one by one, so what a whole query asks for is what its entries ask for:

* `compileEntries_cons` and `compileBranches_cons` take a compiled list apart, entry by entry or
  branch by branch;
* `admits_iff` reads a query as the conjunction of its entries, and `admitsEntry_and` an `$and` as
  the conjunction of its branches.
-/

namespace ObjectStore

namespace Compiled

variable {v : Valuation} {a b : Compiled} {parts : List Compiled}

/-- All predicates are true. -/
def Holds (v : Valuation) (compiled : Compiled) : Prop :=
  ∀ p ∈ compiled.predicates, p.truth v = some true

@[simp] theorem predicates_append : (a ++ b).predicates = a.predicates ++ b.predicates := rfl

@[simp] theorem sorts_append : (a ++ b).sorts = a.sorts ++ b.sorts := rfl

theorem append_assoc (a b d : Compiled) : a ++ b ++ d = a ++ (b ++ d) :=
  (mk.injEq ..).mpr ⟨List.append_assoc .., List.append_assoc ..⟩

@[simp] theorem concat_nil : concat [] = {} := rfl

theorem concat_cons : concat (a :: parts) = a ++ concat parts := rfl

end Compiled

namespace Compiler

open Result

variable {c : Compiler} {v : Valuation} {query fields : Object} {branches : List Json}
  {combinator : Combinator} {out : Compiled}

/-! ## Compiling part by part -/

/-- What one entry of a query asks for. -/
def compileEntry (c : Compiler) (entry : String × Json) : Result Compiled :=
  match Combinator.ofKey? entry.1 with
  | some combinator => c.compileClause combinator entry.2
  | none => c.compileField entry.1 entry.2

/-- What one branch of a combinator asks for, as one predicate. -/
def compileBranch (c : Compiler) (combinator : Combinator) : Json → Result Compiled
  | .obj fields => do
    let branch ← c.compileEntries fields
    pure ⟨(Predicate.all? branch.predicates).toList, branch.sorts⟩
  | _ => .error (.invalidQuery (.clauseBranchNotObject combinator.key))

theorem compileEntries_cons (entry : String × Json) (rest : Object) :
    c.compileEntries (entry :: rest)
      = (do let first ← c.compileEntry entry
            pure (first ++ (← c.compileEntries rest))) := by
  obtain ⟨key, value⟩ := entry
  rw [compileEntries]
  unfold compileEntry
  cases Combinator.ofKey? key <;> rfl

/-- Two parts of a query compile to their conjunction. -/
theorem compileEntries_append_eq_ok {before after : Object} :
    c.compileEntries (before ++ after) = .ok out ↔ ∃ earlier later,
      c.compileEntries before = .ok earlier ∧ c.compileEntries after = .ok later
        ∧ out = earlier ++ later := by
  induction before generalizing out with
  | nil =>
    simp only [List.nil_append, compileEntries, Except.ok.injEq]
    constructor
    · exact fun h => ⟨{}, out, rfl, h, rfl⟩
    · rintro ⟨_, later, rfl, h, rfl⟩
      exact h
  | cons entry rest ih =>
    rw [List.cons_append, compileEntries_cons, compileEntries_cons]
    simp only [bind_eq_ok, pure_eq_ok, ih]
    constructor
    · rintro ⟨first, hfirst, _, ⟨earlier, later, he, hl, rfl⟩, rfl⟩
      exact ⟨first ++ earlier, later, ⟨first, hfirst, earlier, he, rfl⟩, hl,
        (Compiled.append_assoc ..).symm⟩
    · rintro ⟨_, later, ⟨first, hfirst, earlier, he, rfl⟩, hl, rfl⟩
      exact ⟨first, hfirst, _, ⟨earlier, later, he, hl, rfl⟩, (Compiled.append_assoc ..).symm⟩

theorem compileBranches_cons (branch : Json) (rest : List Json) :
    c.compileBranches combinator (branch :: rest)
      = (do let first ← c.compileBranch combinator branch
            pure (first ++ (← c.compileBranches combinator rest))) := by
  unfold compileBranch
  cases branch with
  | obj fields => simp [compileBranches]
  | _ => rw [compileBranches] <;> simp [bind, Except.bind]

theorem compileClause_eq_ok {value : Json} :
    c.compileClause combinator value = .ok out ↔ ∃ branches compiled, value = .arr branches
      ∧ c.compileBranches combinator branches = .ok compiled
      ∧ out = ⟨(combinator.join? compiled.predicates).toList, compiled.sorts⟩ := by
  cases value with
  | arr branches =>
    simp only [compileClause, bind_eq_ok, pure_eq_ok, Json.arr.injEq]
    constructor
    · rintro ⟨compiled, hc, rfl⟩
      exact ⟨branches, compiled, rfl, hc, rfl⟩
    · rintro ⟨_, compiled, rfl, hc, rfl⟩
      exact ⟨compiled, hc, rfl⟩
  | _ => simp [compileClause]

/-- A branch compiles to the conjunction of what its entries compile to. -/
theorem compileBranch_eq_ok {branch : Json} :
    c.compileBranch combinator branch = .ok out ↔ ∃ fields compiled, branch = .obj fields
      ∧ c.compileEntries fields = .ok compiled
      ∧ out = ⟨(Predicate.all? compiled.predicates).toList, compiled.sorts⟩ := by
  cases branch with
  | obj fields =>
    simp only [compileBranch, bind_eq_ok, pure_eq_ok, Json.obj.injEq]
    constructor
    · rintro ⟨compiled, hc, rfl⟩
      exact ⟨fields, compiled, rfl, hc, rfl⟩
    · rintro ⟨_, compiled, rfl, hc, rfl⟩
      exact ⟨compiled, hc, rfl⟩
  | _ => simp [compileBranch]

/-- A field compiles to what its constraint asks, which is something, unless it asks nothing. -/
theorem compileField_eq_ok {name : String} {value : Json} :
    c.compileField name value = .ok out ↔
      (c.asksNothing name value = true ∧ out = {}) ∨
      (c.asksNothing name value = false ∧ out.predicates ≠ [] ∧ ∃ constraint,
        Constraint.ofJson value = .ok constraint ∧
          c.compileConstraint (c.fieldRef name) value constraint = .ok out) := by
  unfold compileField
  cases hasks : c.asksNothing name value with
  | true => simp [eq_comm]
  | false =>
    simp only [Bool.false_eq_true, if_false, bind_eq_ok, false_and, false_or, true_and]
    constructor
    · rintro ⟨constraint, hread, compiled, hc, hout⟩
      split at hout
      -- a constraint that asks nothing after all is refused
      next =>
        obtain ⟨_, hthrow, _⟩ := bind_eq_ok.mp hout
        exact absurd hthrow throw_ne_ok
      next hne =>
        obtain rfl := pure_eq_ok.mp hout
        exact ⟨fun hnil => hne (by simp [hnil]), constraint, hread, hc⟩
    · rintro ⟨hne, constraint, hread, hc⟩
      refine ⟨constraint, hread, out, hc, ?_⟩
      rw [if_neg (by simpa using hne)]
      rfl

/-- A constraint without `$exists` is not skipped. -/
theorem asksNothing_eq_false {name : String} {value : Json} (h : value.get? "$exists" = none) :
    c.asksNothing name value = false := by
  simp [asksNothing, h]

/-- A field whose constraint is one operator compiles to the predicate of that operator. -/
theorem compileField_operator {name : String} {value : Json} {operator : Operator} {p : Predicate}
    (hasks : c.asksNothing name value = false)
    (hread : Constraint.ofJson value = .ok (.operators [operator]))
    (hop : (c.fieldRef name).compileOperator c.now operator = .ok (.ofPredicate p)) :
    c.compileField name value = .ok (.ofPredicate p) := by
  refine compileField_eq_ok.mpr (Or.inr ⟨hasks, by simp [Compiled.ofPredicate], _, hread, ?_⟩)
  simp only [compileConstraint, List.mapM_cons, List.mapM_nil, hop]
  rfl

/-! ## Rows that are admitted -/

/-- A query compiles and holds. -/
def Admits (c : Compiler) (v : Valuation) (query : Object) : Prop :=
  ∃ out, c.compileEntries query = .ok out ∧ out.Holds v

/-- An entry of a query compiles and holds. -/
def AdmitsEntry (c : Compiler) (v : Valuation) (entry : String × Json) : Prop :=
  ∃ out, c.compileEntry entry = .ok out ∧ out.Holds v

/-- A query compiles and asks something. -/
def Asks (c : Compiler) (query : Object) : Prop :=
  ∃ out, c.compileEntries query = .ok out ∧ out.predicates ≠ []

/-- A query admits what all its entries admit. -/
theorem admits_iff : c.Admits v query ↔ ∀ entry ∈ query, c.AdmitsEntry v entry := by
  unfold Admits
  induction query with
  | nil => simp [compileEntries, Compiled.Holds]
  | cons entry rest ih =>
    rw [List.forall_mem_cons, ← ih, compileEntries_cons]
    simp only [bind_eq_ok, pure_eq_ok]
    constructor
    · rintro ⟨_, ⟨first, hf, others, ho, rfl⟩, hholds⟩
      have hfirst : ∀ p ∈ first.predicates, p.truth v = some true :=
        fun p hp => hholds p (List.mem_append_left _ hp)
      have hothers : ∀ p ∈ others.predicates, p.truth v = some true :=
        fun p hp => hholds p (List.mem_append_right _ hp)
      exact ⟨⟨first, hf, hfirst⟩, others, ho, hothers⟩
    · rintro ⟨⟨first, hf, hfirst⟩, others, ho, hothers⟩
      refine ⟨_, ⟨first, hf, others, ho, rfl⟩, ?_⟩
      intro p hp
      rcases List.mem_append.mp hp with hp | hp
      · exact hfirst p hp
      · exact hothers p hp

/-- A query of one field that compiles to one predicate admits the rows on which this is true. -/
theorem admits_field_iff {name : String} {value : Json} {p : Predicate}
    (hkey : Combinator.ofKey? name = none)
    (h : c.compileField name value = .ok (.ofPredicate p)) :
    c.Admits v [(name, value)] ↔ p.truth v = some true := by
  have hentry : c.compileEntry (name, value) = .ok (.ofPredicate p) := by
    rw [compileEntry, hkey, h]
  rw [admits_iff, List.forall_mem_singleton, AdmitsEntry]
  constructor
  · rintro ⟨out, hout, hholds⟩
    obtain rfl := Except.ok.inj (hentry.symm.trans hout)
    exact hholds _ List.mem_cons_self
  · intro h
    exact ⟨_, hentry, List.forall_mem_singleton.mpr h⟩

/-- The compiled conjunction of a query holds where the query does. -/
theorem holds_all?_iff {compiled : Compiled} :
    Compiled.Holds v ⟨(Predicate.all? compiled.predicates).toList, compiled.sorts⟩
      ↔ compiled.Holds v := by
  unfold Compiled.Holds
  cases h : Predicate.all? compiled.predicates with
  | none => simp [Predicate.all?_eq_none_iff.mp h]
  | some p => simp [Predicate.truth_all?_eq_true h]

theorem holds_branch_iff (h : c.compileBranch combinator (.obj fields) = .ok out) :
    out.Holds v ↔ c.Admits v fields := by
  obtain ⟨_, compiled, heq, hc, rfl⟩ := compileBranch_eq_ok.mp h
  obtain rfl := Json.obj.inj heq
  rw [holds_all?_iff, Admits, hc]
  exact ⟨fun hh => ⟨compiled, rfl, hh⟩, fun ⟨_, hc', hh⟩ => Except.ok.inj hc' ▸ hh⟩

/-- The branches of a combinator all hold where each of them admits the row. -/
theorem holds_branches_iff (combinator : Combinator) :
    (∃ compiled, c.compileBranches combinator branches = .ok compiled ∧ compiled.Holds v)
      ↔ ∀ branch ∈ branches, ∃ fields, branch = .obj fields ∧ c.Admits v fields := by
  induction branches with
  | nil => simp [compileBranches, Compiled.Holds]
  | cons branch rest ih =>
    rw [List.forall_mem_cons, ← ih, compileBranches_cons]
    simp only [bind_eq_ok, pure_eq_ok]
    constructor
    · rintro ⟨_, ⟨first, hf, others, ho, rfl⟩, hholds⟩
      obtain ⟨fields, _, rfl, _⟩ := compileBranch_eq_ok.mp hf
      have hfirst : ∀ p ∈ first.predicates, p.truth v = some true :=
        fun p hp => hholds p (List.mem_append_left _ hp)
      have hothers : ∀ p ∈ others.predicates, p.truth v = some true :=
        fun p hp => hholds p (List.mem_append_right _ hp)
      exact ⟨⟨fields, rfl, (holds_branch_iff hf).mp hfirst⟩, others, ho, hothers⟩
    · rintro ⟨⟨fields, rfl, compiled, hc, hh⟩, others, ho, hothers⟩
      have hf : c.compileBranch combinator (.obj fields)
          = .ok ⟨(Predicate.all? compiled.predicates).toList, compiled.sorts⟩ :=
        compileBranch_eq_ok.mpr ⟨fields, compiled, rfl, hc, rfl⟩
      refine ⟨_, ⟨_, hf, others, ho, rfl⟩, ?_⟩
      intro p hp
      rcases List.mem_append.mp hp with hp | hp
      · exact holds_all?_iff.mpr hh p hp
      · exact hothers p hp

/-- An `$and` admits what all its branches admit. -/
theorem admitsEntry_and : c.AdmitsEntry v ("$and", .arr branches)
    ↔ ∀ branch ∈ branches, ∃ fields, branch = .obj fields ∧ c.Admits v fields := by
  rw [← holds_branches_iff .and]
  simp only [AdmitsEntry, compileEntry, Combinator.ofKey?, compileClause_eq_ok, Json.arr.injEq]
  constructor
  · rintro ⟨_, ⟨_, compiled, rfl, hc, rfl⟩, hh⟩
    exact ⟨compiled, hc, holds_all?_iff.mp hh⟩
  · rintro ⟨compiled, hc, hh⟩
    exact ⟨_, ⟨branches, compiled, rfl, hc, rfl⟩, holds_all?_iff.mpr hh⟩

/-- A filter holds where its query admits the row. -/
theorem holds_ofQuery_iff {f : Filter} (h : Filter.ofQuery c query = .ok f) :
    f.Holds v ↔ c.Admits v query := by
  simp only [Filter.ofQuery, bind_eq_ok, pure_eq_ok] at h
  obtain ⟨compiled, hc, rfl⟩ := h
  -- a filter is the compiled query with its predicates joined to one
  have hf : Filter.Holds ⟨Predicate.all? compiled.predicates, compiled.sorts⟩ v
      ↔ Compiled.Holds v ⟨(Predicate.all? compiled.predicates).toList, compiled.sorts⟩ := by
    simp [Filter.Holds, Compiled.Holds]
  rw [hf, holds_all?_iff, Admits, hc]
  exact ⟨fun hh => ⟨compiled, rfl, hh⟩, fun ⟨_, hc', hh⟩ => Except.ok.inj hc' ▸ hh⟩

end Compiler

end ObjectStore
