import ObjectStore.Proofs.Dict
import ObjectStore.Proofs.Query.Meaning

/-!
# The fields that a query asks about

A query is a tree of `$or`, `$and` and `$nor` over constraints on fields. Combinators join the
predicates of their branches but leave the clauses of these as they are, so the clauses of a
compiled query are those of its leaves, from left to right, and so are its sort clauses
(`compileEntries_leaves`). Whatever holds of every compiled field therefore holds of every compiled
query.
-/

namespace ObjectStore

namespace Compiled

variable {a b : Compiled} {parts : List Compiled}

/-- The clauses of all predicates, from left to right. -/
def clauses (compiled : Compiled) : List Sql := compiled.predicates.flatMap Predicate.clauses

@[simp] theorem clauses_empty : clauses {} = [] := rfl

/-- Parts of a query in a row have the clauses of the first and then those of the second. -/
@[simp] theorem clauses_append : (a ++ b).clauses = a.clauses ++ b.clauses := List.flatMap_append

/-- A part of a query has the clauses and the sort clauses of some parts. -/
def Gathers (compiled : Compiled) (parts : List Compiled) : Prop :=
  compiled.clauses = parts.flatMap clauses ∧ compiled.sorts = parts.flatMap sorts

theorem gathers_nil : Gathers {} [] := ⟨rfl, rfl⟩

/-- A part gathers itself. -/
theorem gathers_single (compiled : Compiled) : compiled.Gathers [compiled] := by
  simp [Gathers]

/-- Parts in a row gather what each gathers. -/
theorem Gathers.append {others : List Compiled} (ha : a.Gathers parts) (hb : b.Gathers others) :
    (a ++ b).Gathers (parts ++ others) := by
  constructor
  · rw [clauses_append, ha.1, hb.1, List.flatMap_append]
  · show a.sorts ++ b.sorts = _
    rw [ha.2, hb.2, List.flatMap_append]

/-- Parts put together gather all of them. -/
theorem gathers_concat (parts : List Compiled) : (concat parts).Gathers parts :=
  ⟨List.flatMap_assoc, rfl⟩

/-- A part of a query that asks for an order also asks for a condition. -/
def Asserts (compiled : Compiled) : Prop := compiled.sorts ≠ [] → compiled.clauses ≠ []

/-- A part without an order need not ask for a condition. -/
theorem asserts_of_sorts_eq_nil (h : a.sorts = []) : a.Asserts := fun hne => absurd h hne

/-- What gathers parts that ask for a condition with each order does so itself. -/
theorem Gathers.asserts (h : a.Gathers parts) (hparts : ∀ part ∈ parts, part.Asserts) :
    a.Asserts := by
  intro hsorts hclauses
  -- no part has a clause, so none has a sort clause either
  rw [h.1, List.flatMap_eq_nil_iff] at hclauses
  rw [h.2] at hsorts
  refine hsorts (List.flatMap_eq_nil_iff.mpr ?_)
  intro part hpart
  exact Decidable.byContradiction fun hne => hparts part hpart hne (hclauses part hpart)

/-- A predicate that joins others has their clauses. -/
theorem Gathers.joined {join? : List Predicate → Option Predicate}
    (hclauses : ∀ members p, join? members = some p → p.clauses = members.flatMap Predicate.clauses)
    (hnone : ∀ members, join? members = none → members = []) (h : a.Gathers parts) :
    Gathers ⟨(join? a.predicates).toList, a.sorts⟩ parts := by
  refine ⟨?_, h.2⟩
  rw [← h.1, clauses, clauses]
  cases hjoin : join? a.predicates with
  | none => simp [hnone _ hjoin]
  | some p => simp [hclauses _ _ hjoin]

end Compiled

namespace Combinator

/-- A combinator joins the clauses of its members. -/
theorem clauses_join? (combinator : Combinator) (members : List Predicate) (p : Predicate)
    (h : combinator.join? members = some p) :
    p.clauses = members.flatMap Predicate.clauses := by
  cases combinator with
  | or => exact Predicate.clauses_any? h
  | and => exact Predicate.clauses_all? h
  | nor =>
    obtain ⟨joined, hjoined, rfl⟩ := Option.map_eq_some_iff.mp h
    rw [Predicate.clauses_not, Predicate.clauses_any? hjoined]

/-- A combinator makes nothing of no members only. -/
theorem eq_nil_of_join? (combinator : Combinator) (members : List Predicate)
    (h : combinator.join? members = none) : members = [] := by
  cases combinator with
  | or => exact Predicate.any?_eq_none_iff.mp h
  | and => exact Predicate.all?_eq_none_iff.mp h
  | nor => exact Predicate.any?_eq_none_iff.mp (Option.map_eq_none_iff.mp h)

end Combinator

namespace Compiler

open Result

mutual

/-- The fields with their constraints, at any depth, as a reader of the query meets them. -/
def leaves : List (String × Json) → List (String × Json)
  | [] => []
  | (key, value) :: rest =>
    (match Combinator.ofKey? key with
      | some _ => leavesOfClause value
      | none => [(key, value)]) ++ leaves rest

/-- The fields of the branches of a combinator. -/
def leavesOfClause : Json → List (String × Json)
  | .arr branches => leavesOfBranches branches
  | _ => []

/-- The fields of some branches. -/
def leavesOfBranches : List Json → List (String × Json)
  | [] => []
  | .obj fields :: rest => leaves fields ++ leavesOfBranches rest
  | _ :: rest => leavesOfBranches rest

end

/-- Where no value has branches, the leaves are entries of the query itself. -/
theorem mem_of_mem_leaves {query : List (String × Json)} {field : String × Json}
    (h : ∀ entry ∈ query, leavesOfClause entry.2 = []) (hfield : field ∈ leaves query) :
    field ∈ query := by
  induction query with
  | nil => rwa [leaves] at hfield
  | cons entry rest ih =>
    obtain ⟨key, value⟩ := entry
    rw [leaves, List.mem_append] at hfield
    rcases hfield with hfield | hfield
    -- an entry that is a combinator has no branches by assumption, and so no leaves
    · cases hkey : Combinator.ofKey? key with
      | none =>
        rw [hkey] at hfield
        exact List.mem_cons.mpr (Or.inl (List.mem_singleton.mp hfield))
      | some combinator =>
        rw [hkey, h (key, value) List.mem_cons_self] at hfield
        exact (List.not_mem_nil hfield).elim
    · exact List.mem_cons_of_mem _ (ih (fun e he => h e (List.mem_cons_of_mem _ he)) hfield)

/-- The leaves of a query are those of its entries, one after another. -/
theorem leaves_cons (entry : String × Json) (rest : Object) :
    leaves (entry :: rest) = leaves [entry] ++ leaves rest := by
  obtain ⟨key, value⟩ := entry
  rw [leaves, leaves, leaves, List.append_nil]

/-! ## Queries about some fields only -/

/-- All fields that a query asks about, at any depth, have a property. -/
def AsksOnly (P : String → Prop) (query : Object) : Prop := ∀ field ∈ leaves query, P field.1

section AsksOnly

variable {P : String → Prop} {query fields : Object} {key : String} {value : Json}
  {branches : List Json}

/-- What a query asks about is what its entries ask about. -/
theorem asksOnly_iff : AsksOnly P query ↔ ∀ entry ∈ query, AsksOnly P [entry] := by
  induction query with
  | nil => simp [AsksOnly, leaves]
  | cons entry rest ih =>
    rw [List.forall_mem_cons, ← ih, AsksOnly, leaves_cons, List.forall_mem_append]
    exact Iff.rfl

/-- A field asks about itself. -/
theorem asksOnly_field (hkey : Combinator.ofKey? key = none) :
    AsksOnly P [(key, value)] ↔ P key := by
  rw [AsksOnly, leaves, hkey, leaves, List.append_nil, List.forall_mem_singleton]

/-- A combinator asks about what stands under it. -/
theorem asksOnly_clause (hkey : (Combinator.ofKey? key).isSome = true) :
    AsksOnly P [(key, value)] ↔ ∀ field ∈ leavesOfClause value, P field.1 := by
  obtain ⟨combinator, hcombinator⟩ := Option.isSome_iff_exists.mp hkey
  rw [AsksOnly, leaves, hcombinator, leaves, List.append_nil]

/-- What a combinator asks about is what its branches ask about. -/
theorem asksOnly_branches (hkey : (Combinator.ofKey? key).isSome = true) :
    AsksOnly P [(key, .arr branches)] ↔ ∀ fields, .obj fields ∈ branches → AsksOnly P fields := by
  rw [asksOnly_clause hkey, leavesOfClause]
  induction branches with
  | nil => simp [leavesOfBranches]
  | cons branch rest ih =>
    simp only [List.mem_cons, or_imp, forall_and]
    rw [← ih]
    cases branch with
    | obj fields =>
      rw [leavesOfBranches, List.forall_mem_append]
      refine and_congr_left fun _ => ?_
      constructor
      · rintro h _ ⟨⟩
        exact h
      · intro h
        exact h fields rfl
    | _ => simp [leavesOfBranches]

/-- What is no list asks about its key, or about nothing under a combinator. -/
theorem asksOnly_single (hkey : P key) (hvalue : value.arr? = none) :
    AsksOnly P [(key, value)] := by
  cases hcombinator : Combinator.ofKey? key with
  | none => exact (asksOnly_field hcombinator).mpr hkey
  | some combinator =>
    rw [asksOnly_clause (by rw [hcombinator]; rfl)]
    cases value with
    | arr => cases hvalue
    | _ =>
      intro field hfield
      exact (List.not_mem_nil hfield).elim

/-- A query with one more entry asks about what both ask about. -/
theorem AsksOnly.insert (h : AsksOnly P query) (hentry : AsksOnly P [(key, value)]) :
    AsksOnly P (query.insert key value) := by
  rw [asksOnly_iff] at h ⊢
  intro entry he
  rcases Dict.mem_insert he with rfl | he
  · exact hentry
  · exact h entry he

/-- A query with one entry fewer asks about no more. -/
theorem AsksOnly.erase (h : AsksOnly P query) (key : String) : AsksOnly P (query.erase key) := by
  rw [asksOnly_iff] at h ⊢
  exact fun entry he => h entry (Dict.mem_erase.mp he).1

/-- An entry of a query asks about no more than the query. -/
theorem AsksOnly.get? (h : AsksOnly P query) (hget : query.get? key = some value) :
    AsksOnly P [(key, value)] :=
  asksOnly_iff.mp h _ (Dict.mem_of_get? hget)

end AsksOnly

/-! ## What a query compiles to -/

variable {c : Compiler} {combinator : Combinator} {out : Compiled}

/-- Some parts are what some fields compile to. -/
def CompileTo (c : Compiler) (fields : List (String × Json)) (parts : List Compiled) : Prop :=
  List.Forall₂ (fun field part => c.compileField field.1 field.2 = .ok part) fields parts

/-- Fields in a row compile to the parts of each. -/
theorem CompileTo.append {fields others : List (String × Json)} {parts rest : List Compiled}
    (h : c.CompileTo fields parts) (hrest : c.CompileTo others rest) :
    c.CompileTo (fields ++ others) (parts ++ rest) :=
  List.rel_append h hrest

mutual

/-- A query compiles to the clauses of its leaves. -/
theorem compileEntries_leaves {query : List (String × Json)} {out : Compiled}
    (h : c.compileEntries query = .ok out) :
    ∃ parts, c.CompileTo (leaves query) parts ∧ out.Gathers parts := by
  match query with
  | [] =>
    rw [compileEntries] at h
    obtain rfl := Except.ok.inj h
    exact ⟨[], by rw [leaves]; exact .nil, Compiled.gathers_nil⟩
  | (key, value) :: rest =>
    rw [compileEntries_cons] at h
    obtain ⟨first, hfirst, h⟩ := bind_eq_ok.mp h
    obtain ⟨others, hothers, h⟩ := bind_eq_ok.mp h
    obtain rfl := pure_eq_ok.mp h
    obtain ⟨parts, hparts, hgathers⟩ := compileEntries_leaves hothers
    rw [leaves]
    simp only [compileEntry] at hfirst
    -- a field is a leaf itself, and a combinator has those of its branches
    cases hkey : Combinator.ofKey? key with
    | none =>
      rw [hkey] at hfirst
      exact ⟨first :: parts, .cons hfirst hparts, (Compiled.gathers_single first).append hgathers⟩
    | some combinator =>
      rw [hkey] at hfirst
      obtain ⟨inner, hinner, hfirst⟩ := compileClause_leaves hfirst
      exact ⟨inner ++ parts, hinner.append hparts, hfirst.append hgathers⟩

/-- A combinator compiles to the clauses of the leaves of its branches. -/
theorem compileClause_leaves {combinator : Combinator} {value : Json} {out : Compiled}
    (h : c.compileClause combinator value = .ok out) :
    ∃ parts, c.CompileTo (leavesOfClause value) parts ∧ out.Gathers parts := by
  match value with
  | .arr branches =>
    rw [compileClause] at h
    obtain ⟨compiled, hcompiled, h⟩ := bind_eq_ok.mp h
    obtain rfl := pure_eq_ok.mp h
    obtain ⟨parts, hparts, hgathers⟩ := compileBranches_leaves hcompiled
    rw [leavesOfClause]
    exact ⟨parts, hparts, hgathers.joined combinator.clauses_join? combinator.eq_nil_of_join?⟩
  | .null | .bool _ | .int _ | .double _ | .str _ | .obj _ => simp [compileClause] at h

/-- Branches compile to the clauses of their leaves, one branch after another. -/
theorem compileBranches_leaves {combinator : Combinator} {branches : List Json} {out : Compiled}
    (h : c.compileBranches combinator branches = .ok out) :
    ∃ parts, c.CompileTo (leavesOfBranches branches) parts ∧ out.Gathers parts := by
  match branches with
  | [] =>
    rw [compileBranches] at h
    obtain rfl := Except.ok.inj h
    exact ⟨[], by rw [leavesOfBranches]; exact .nil, Compiled.gathers_nil⟩
  | .obj fields :: rest =>
    rw [compileBranches] at h
    -- a branch is one condition before the combinator joins it with the others
    obtain ⟨branch, hbranch, h⟩ := bind_eq_ok.mp h
    obtain ⟨others, hothers, h⟩ := bind_eq_ok.mp h
    obtain rfl := pure_eq_ok.mp h
    obtain ⟨inner, hinner, hfirst⟩ := compileEntries_leaves hbranch
    obtain ⟨parts, hparts, hgathers⟩ := compileBranches_leaves hothers
    have hjoined := hfirst.joined (fun _ _ => Predicate.clauses_all?)
      fun _ => Predicate.all?_eq_none_iff.mp
    rw [leavesOfBranches]
    exact ⟨inner ++ parts, hinner.append hparts, hjoined.append hgathers⟩
  | .null :: _ | .bool _ :: _ | .int _ :: _ | .double _ :: _ | .str _ :: _ | .arr _ :: _ =>
    simp [compileBranches] at h

end

end Compiler

end ObjectStore
