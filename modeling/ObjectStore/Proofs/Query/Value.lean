import ObjectStore.Proofs.Dict
import ObjectStore.Proofs.Query.Meaning

/-!
# What a query comes to

On a row a query comes to true, false or unknown, or to nothing if it asks nothing.
`Compiler.ComesTo` says so of a query that compiles. It is decided by the entries one by one: their
values are joined by `both`, which has nothing for its neutral element, in any order
(`comesTo_cons`, `comesTo_erase`). What a combinator comes to is decided by the values of its
branches (`entryComesTo_combinator`).

A row is admitted where a query comes to true, or to nothing. So an `$or` is the disjunction of
those of its branches that ask something (`admitsEntry_or`).
-/

namespace ObjectStore

/-- What a query comes to on a row: nothing if it asks nothing. -/
abbrev Value := Option (Option Bool)

namespace Value

/-- The value of two parts together. -/
def both : Value → Value → Value := Option.merge Truth.and

/-- The value of either of two parts. -/
def either : Value → Value → Value := Option.merge Truth.or

instance : Std.Commutative both := inferInstanceAs (Std.Commutative (Option.merge Truth.and))

instance : Std.Associative both := inferInstanceAs (Std.Associative (Option.merge Truth.and))

@[simp] theorem none_both (a : Value) : both none a = a := Option.merge_none_left

/-- The value of all of some parts together. -/
def all (values : List Value) : Value := values.foldr both none

/-- The value of any of some parts. -/
def any (values : List Value) : Value := values.foldr either none

/-- What is asked together with an alternative may be asked together with each of its parts, if
there are any and all of them ask something. -/
theorem both_any (a : Value) {values : List Value} (hne : values ≠ [])
    (hasks : ∀ b ∈ values, b ≠ none) : both a (any values) = any (values.map (both a)) := by
  cases a with
  | none => rw [none_both, funext none_both, List.map_id']
  | some a =>
    induction values with
    | nil => exact absurd rfl hne
    | cons b rest ih =>
      obtain ⟨b, rfl⟩ := Option.ne_none_iff_exists'.mp (hasks b List.mem_cons_self)
      rcases rest with _ | ⟨next, rest⟩
      · rfl
      have hrest := ih (List.cons_ne_nil _ _) fun c hc => hasks c (List.mem_cons_of_mem _ hc)
      -- the alternatives to come ask something, so three-valued logic may be used on them
      obtain ⟨c, hc⟩ : ∃ c, any (next :: rest) = some c := by
        obtain ⟨next, rfl⟩ := Option.ne_none_iff_exists'.mp (hasks next (by simp))
        cases h : any rest <;> exact ⟨_, by simp [any, either, Option.merge] at h ⊢; rw [h]⟩
      rw [List.map_cons, any, List.foldr_cons, ← any, hc, any, List.foldr_cons, ← any, ← hrest, hc]
      exact congrArg some (Truth.and_or a b c)

/-- Parts that ask nothing do not count. -/
theorem all_filterMap (values : List Value) :
    all ((values.filterMap id).map some) = all values := by
  induction values with
  | nil => rfl
  | cons a rest ih =>
    cases a with
    | none => simpa [all, both] using ih
    | some a => simpa [all] using congrArg (both (some a)) ih

/-- Alternatives that ask nothing do not count. -/
theorem any_filterMap (values : List Value) :
    any ((values.filterMap id).map some) = any values := by
  induction values with
  | nil => rfl
  | cons a rest ih =>
    cases a with
    | none => simpa [any, either] using ih
    | some a => simpa [any] using congrArg (either (some a)) ih

/-- A row is kept where a query comes to true, or asks nothing. -/
def Keeps (m : Value) : Prop := m = none ∨ m = some (some true)

/-- An alternative asks nothing if none of its parts does. -/
theorem any_eq_none_iff {values : List Value} : any values = none ↔ ∀ b ∈ values, b = none := by
  induction values with
  | nil => simp [any]
  | cons b rest ih =>
    rw [any, List.foldr_cons, ← any, List.forall_mem_cons, ← ih]
    cases b <;> cases any rest <;> simp [either, Option.merge]

/-- An alternative is true if one of its parts is. -/
theorem any_eq_true_iff {values : List Value} :
    any values = some (some true) ↔ some (some true) ∈ values := by
  induction values with
  | nil => simp [any]
  | cons b rest ih =>
    rw [any, List.foldr_cons, ← any, List.mem_cons, ← ih, eq_comm (b := b)]
    cases b <;> cases any rest <;> simp [either, Option.merge]

end Value

/-- Some branch is a query of some kind. -/
def SomeBranch (P : Object → Prop) (branches : List Json) : Prop :=
  ∃ fields, .obj fields ∈ branches ∧ P fields

/-- All branches are queries of some kind. -/
def EveryBranch (P : Object → Prop) (branches : List Json) : Prop :=
  ∀ branch ∈ branches, ∃ fields, branch = .obj fields ∧ P fields

/-- The value of a combinator with branches of some values. -/
def Combinator.value : Combinator → List Value → Value
  | .or, values => .any values
  | .and, values => .all values
  | .nor, values => (Value.any values).map Truth.not

namespace Predicate

variable {v : Valuation}

/-- A conjunction comes to the value of all members together. -/
theorem map_truth_all? (members : List Predicate) :
    (all? members).map (truth v) = Value.all (members.map fun member => some (member.truth v)) := by
  induction members with
  | nil => rfl
  | cons member rest ih => rw [map_truth_all?_cons, ih]; rfl

/-- A disjunction comes to the value of any member. -/
theorem map_truth_any? (members : List Predicate) :
    (any? members).map (truth v) = Value.any (members.map fun member => some (member.truth v)) := by
  induction members with
  | nil => rfl
  | cons member rest ih => rw [map_truth_any?_cons, ih]; rfl

/-- Members in a row come to the value of both lists together. -/
theorem map_truth_all?_append (members later : List Predicate) :
    (all? (members ++ later)).map (truth v)
      = Value.both ((all? members).map (truth v)) ((all? later).map (truth v)) := by
  induction members with
  | nil => rw [List.nil_append, all?, Option.map_none, Value.none_both]
  | cons member rest ih =>
    rw [List.cons_append, map_truth_all?_cons, ih, map_truth_all?_cons]
    change Value.both _ (Value.both _ _) = Value.both (Value.both _ _) _
    ac_rfl

end Predicate

namespace Compiled

variable {v : Valuation} {a b : Compiled}

/-- What a compiled query comes to on a row. -/
def value (v : Valuation) (compiled : Compiled) : Value :=
  (Predicate.all? compiled.predicates).map (Predicate.truth v)

/-- Parts of a query in a row come to the value of both together. -/
theorem value_append : (a ++ b).value v = .both (a.value v) (b.value v) :=
  Predicate.map_truth_all?_append _ _

/-- A single condition comes to what it is. -/
@[simp] theorem value_toList (p : Option Predicate) (sorts : List Sql) :
    Compiled.value v ⟨p.toList, sorts⟩ = p.map (Predicate.truth v) := by
  cases p <;> rfl

/-- A query comes to nothing if it has no conditions. -/
theorem value_eq_none_iff : a.value v = none ↔ a.predicates = [] := by
  rw [value, Option.map_eq_none_iff, Predicate.all?_eq_none_iff]

end Compiled

namespace Compiler

open Result

variable {c : Compiler} {v : Valuation} {query fields : Object} {entry : String × Json}
  {key : String}
  {constraint : Json} {m : Value} {combinator : Combinator}

/-- A query compiles and comes to a value on a row. -/
def ComesTo (c : Compiler) (v : Valuation) (query : Object) (m : Value) : Prop :=
  ∃ out, c.compileEntries query = .ok out ∧ out.value v = m

/-- An entry of a query compiles and comes to a value on a row. -/
def EntryComesTo (c : Compiler) (v : Valuation) (entry : String × Json) (m : Value) : Prop :=
  ∃ out, c.compileEntry entry = .ok out ∧ out.value v = m

/-- A query comes to one value only. -/
theorem ComesTo.unique {m' : Value} (h : c.ComesTo v query m) (h' : c.ComesTo v query m') :
    m = m' := by
  obtain ⟨out, hout, rfl⟩ := h
  obtain ⟨out', hout', rfl⟩ := h'
  rw [Except.ok.inj (hout.symm.trans hout')]

/-- A query asks something if it comes to a truth value, on whatever row. -/
theorem asks_iff (v : Valuation) : c.Asks query ↔ ∃ b, c.ComesTo v query (some b) := by
  constructor
  -- whether a value is there does not depend on the row
  · rintro ⟨out, hout, hne⟩
    obtain ⟨b, hb⟩ := Option.ne_none_iff_exists'.mp (mt Compiled.value_eq_none_iff.mp hne)
    exact ⟨b, out, hout, hb⟩
  · rintro ⟨b, out, hout, hb⟩
    exact ⟨out, hout, fun hnil => nomatch hb.symm.trans (Compiled.value_eq_none_iff.mpr hnil)⟩

/-! ## Entry by entry -/

/-- The empty query comes to nothing. -/
@[simp] theorem comesTo_nil : c.ComesTo v [] m ↔ m = none := by
  simp [ComesTo, compileEntries, Compiled.value, Predicate.all?, eq_comm]

/-- A query comes to the value of its first entry together with the rest. -/
theorem comesTo_cons : c.ComesTo v (entry :: query) m ↔
    ∃ a b, c.EntryComesTo v entry a ∧ c.ComesTo v query b ∧ m = .both a b := by
  unfold ComesTo EntryComesTo
  rw [compileEntries_cons]
  simp only [bind_eq_ok, pure_eq_ok]
  constructor
  · rintro ⟨_, ⟨first, hf, others, ho, rfl⟩, rfl⟩
    exact ⟨_, _, ⟨first, hf, rfl⟩, ⟨others, ho, rfl⟩, Compiled.value_append⟩
  · rintro ⟨_, _, ⟨first, hf, rfl⟩, ⟨others, ho, rfl⟩, rfl⟩
    exact ⟨_, ⟨first, hf, others, ho, rfl⟩, Compiled.value_append⟩

/-- Any entry of a query may be taken for the first one. -/
theorem comesTo_erase (hq : query.Sorted) (hget : query.get? key = some constraint) :
    c.ComesTo v query m ↔
      ∃ a b, c.EntryComesTo v (key, constraint) a ∧ c.ComesTo v (query.erase key) b
        ∧ m = .both a b := by
  induction query generalizing m with
  | nil => cases hget
  | cons head rest ih =>
    obtain ⟨k, w⟩ := head
    obtain ⟨hlt, hrest⟩ := Dict.sorted_cons.mp hq
    by_cases hk : k = key
    · subst hk
      obtain rfl : w = constraint := by simpa [Dict.get?] using hget
      have herase : Dict.erase ((k, w) :: rest) k = rest := by
        have hnone := Dict.erase_of_get?_eq_none (Dict.get?_eq_none_of_lt hlt)
        simpa [Dict.erase] using hnone
      rw [herase, comesTo_cons]
    -- the entry is further behind, and changes places with the first one
    · have hget' : Dict.get? rest key = some constraint := by simpa [Dict.get?, hk] using hget
      have herase : Dict.erase ((k, w) :: rest) key = (k, w) :: Dict.erase rest key := by
        simp [Dict.erase, hk]
      rw [herase, comesTo_cons]
      simp only [comesTo_cons, ih hrest hget']
      constructor
      · rintro ⟨a, _, ha, ⟨b, r, hb, hr, rfl⟩, rfl⟩
        refine ⟨b, _, hb, ⟨a, r, ha, hr, rfl⟩, ?_⟩
        ac_rfl
      · rintro ⟨b, _, hb, ⟨a, r, ha, hr, rfl⟩, rfl⟩
        refine ⟨a, _, ha, ⟨b, r, hb, hr, rfl⟩, ?_⟩
        ac_rfl

/-- An entry that is stored comes first as well as anywhere. -/
theorem comesTo_insert (hq : query.Sorted) : c.ComesTo v (query.insert key constraint) m ↔
    ∃ a b, c.EntryComesTo v (key, constraint) a ∧ c.ComesTo v (query.erase key) b
      ∧ m = .both a b := by
  rw [comesTo_erase (hq.insert key constraint) (Dict.get?_insert_self ..), Dict.erase_insert]

/-! ## Combinators -/

/-- The branches of a list are queries that come to some values. -/
abbrev BranchesComeTo (c : Compiler) (v : Valuation) : List Json → List Value → Prop :=
  List.Forall₂ fun branch m => ∃ fields, branch = .obj fields ∧ c.ComesTo v fields m

/-- Branches compile to the predicates of those that ask something. -/
theorem compileBranches_comeTo {branches : List Json} {truths : List (Option Bool)} :
    (∃ compiled, c.compileBranches combinator branches = .ok compiled
        ∧ compiled.predicates.map (Predicate.truth v) = truths) ↔
      ∃ values, c.BranchesComeTo v branches values ∧ truths = values.filterMap id := by
  induction branches generalizing truths with
  | nil => simp [compileBranches, BranchesComeTo, eq_comm]
  | cons branch rest ih =>
    rw [compileBranches_cons]
    simp only [bind_eq_ok, pure_eq_ok, BranchesComeTo, List.forall₂_cons_left_iff]
    -- by induction on the branches; one that asks nothing adds no predicate and no truth value
    constructor
    · rintro ⟨_, ⟨first, hf, others, ho, rfl⟩, rfl⟩
      obtain ⟨fields, compiled, rfl, hc, rfl⟩ := compileBranch_eq_ok.mp hf
      obtain ⟨values, hvalues, htruths⟩ := ih.mp ⟨others, ho, rfl⟩
      refine ⟨_, ⟨_, values, ⟨fields, rfl, compiled, hc, rfl⟩, hvalues, rfl⟩, ?_⟩
      rw [Compiled.predicates_append, List.map_append, htruths, Compiled.value]
      cases Predicate.all? compiled.predicates <;> rfl
    · rintro ⟨_, ⟨_, values, ⟨fields, rfl, compiled, hc, rfl⟩, hvalues, rfl⟩, rfl⟩
      obtain ⟨others, ho, htruths⟩ := ih.mpr ⟨values, hvalues, rfl⟩
      refine ⟨_, ⟨_, compileBranch_eq_ok.mpr ⟨fields, compiled, rfl, hc, rfl⟩, others, ho, rfl⟩, ?_⟩
      rw [Compiled.predicates_append, List.map_append, htruths, Compiled.value]
      cases Predicate.all? compiled.predicates <;> rfl

/-- What a combinator makes of predicates comes to what it makes of their values. -/
theorem map_truth_join? {predicates : List Predicate} {values : List Value}
    (h : predicates.map (Predicate.truth v) = values.filterMap id) :
    (combinator.join? predicates).map (Predicate.truth v) = combinator.value values := by
  have hmap : (predicates.map fun p => some (p.truth v)) = (values.filterMap id).map some := by
    rw [← h, List.map_map]
    rfl
  cases combinator with
  | or => rw [Combinator.join?, Combinator.value, Predicate.map_truth_any?, hmap,
    Value.any_filterMap]
  | and => rw [Combinator.join?, Combinator.value, Predicate.map_truth_all?, hmap,
    Value.all_filterMap]
  | nor =>
    rw [Combinator.join?, Combinator.value, ← Value.any_filterMap, ← hmap,
      ← Predicate.map_truth_any?, Option.map_map, Option.map_map]
    exact congrArg (Option.map · _) (funext fun p => by rw [Function.comp, Predicate.truth]; rfl)

/-- What a combinator comes to is decided by what its branches come to. -/
theorem entryComesTo_combinator (hkey : Combinator.ofKey? key = some combinator) :
    c.EntryComesTo v (key, constraint) m ↔ ∃ branches values, constraint = .arr branches
      ∧ c.BranchesComeTo v branches values ∧ m = combinator.value values := by
  simp only [EntryComesTo, compileEntry, hkey, compileClause_eq_ok]
  constructor
  · rintro ⟨_, ⟨branches, compiled, rfl, hc, rfl⟩, rfl⟩
    obtain ⟨values, hvalues, htruths⟩ := compileBranches_comeTo.mp ⟨compiled, hc, rfl⟩
    exact ⟨branches, values, rfl, hvalues, by rw [Compiled.value_toList, map_truth_join? htruths]⟩
  · rintro ⟨branches, values, rfl, hvalues, rfl⟩
    obtain ⟨compiled, hc, htruths⟩ := compileBranches_comeTo.mpr ⟨values, hvalues, rfl⟩
    exact ⟨_, ⟨branches, compiled, rfl, hc, rfl⟩,
      by rw [Compiled.value_toList, map_truth_join? htruths]⟩

/-! ## Rows -/

/-- A compiled query keeps a row if its value does. -/
theorem holds_iff_keeps {compiled : Compiled} : compiled.Holds v ↔ (compiled.value v).Keeps := by
  unfold Compiled.Holds Compiled.value Value.Keeps
  cases h : Predicate.all? compiled.predicates with
  | none => simp [Predicate.all?_eq_none_iff.mp h]
  | some p => simp [Predicate.truth_all?_eq_true h]

/-- A query asks something if it comes to a truth value. -/
theorem ComesTo.asks_iff {m : Value} (h : c.ComesTo v query m) : c.Asks query ↔ m ≠ none := by
  rw [Compiler.asks_iff v, Option.ne_none_iff_exists']
  exact exists_congr fun b => ⟨h.unique, fun hm => hm ▸ h⟩

/-- A query admits a row if its value keeps it. -/
theorem ComesTo.admits_iff {m : Value} (h : c.ComesTo v query m) :
    c.Admits v query ↔ m.Keeps := by
  obtain ⟨out, hout, rfl⟩ := h
  rw [Admits, hout]
  simp only [Except.ok.injEq, exists_eq_left', holds_iff_keeps]

/-- An entry admits a row if its value keeps it. -/
theorem EntryComesTo.admits_iff {m : Value} (h : c.EntryComesTo v entry m) :
    c.AdmitsEntry v entry ↔ m.Keeps := by
  obtain ⟨out, hout, rfl⟩ := h
  rw [AdmitsEntry, hout]
  simp only [Except.ok.injEq, exists_eq_left', holds_iff_keeps]

/-- A branch of some kind is there if there is a value of some kind, where the value of a branch
tells its kind. -/
theorem someBranch_iff {P : Object → Prop} {Q : Value → Prop} {values : List Value}
    (hvalues : c.BranchesComeTo v branches values)
    (h : ∀ fields m, c.ComesTo v fields m → (P fields ↔ Q m)) :
    SomeBranch P branches ↔ ∃ m ∈ values, Q m := by
  constructor
  · rintro ⟨fields, hmem, hfields⟩
    obtain ⟨m, hm, _, heq, hcomes⟩ := exists_right_of_mem hvalues hmem
    obtain rfl := Json.obj.inj heq
    exact ⟨m, hm, (h fields m hcomes).mp hfields⟩
  · rintro ⟨m, hm, hvalue⟩
    obtain ⟨_, hmem, fields, rfl, hcomes⟩ := exists_left_of_mem hvalues hm
    exact ⟨fields, hmem, (h fields m hcomes).mpr hvalue⟩

/-- An `$or` that compiles admits what one of those branches admits that ask something; if none of
them does, it admits every row. -/
theorem admitsEntry_or (hcompiles : ∃ out, c.compileEntry ("$or", .arr branches) = .ok out) :
    c.AdmitsEntry v ("$or", .arr branches) ↔
      SomeBranch (fun fields => c.Asks fields ∧ c.Admits v fields) branches
        ∨ ¬ SomeBranch c.Asks branches := by
  obtain ⟨out, hout⟩ := hcompiles
  have hentry : c.EntryComesTo v ("$or", .arr branches) (out.value v) := ⟨out, hout, rfl⟩
  obtain ⟨_, values, heq, hvalues, hm⟩ :=
    (entryComesTo_combinator (rfl : Combinator.ofKey? "$or" = some .or)).mp hentry
  obtain rfl := Json.arr.inj heq
  -- a true branch is one that asks something and admits the row
  have htrue : SomeBranch (fun fields => c.Asks fields ∧ c.Admits v fields) branches
      ↔ ∃ m ∈ values, m = some (some true) :=
    someBranch_iff hvalues fun fields m hcomes => by
      rw [hcomes.asks_iff, hcomes.admits_iff, Value.Keeps]
      cases m <;> simp
  have hasks : SomeBranch c.Asks branches ↔ ∃ m ∈ values, m ≠ none :=
    someBranch_iff hvalues fun _ _ hcomes => hcomes.asks_iff
  rw [hentry.admits_iff, hm, htrue, hasks]
  change (Value.any values).Keeps ↔ _
  rw [Value.Keeps, Value.any_eq_none_iff, Value.any_eq_true_iff]
  simp [or_comm]

end Compiler

end ObjectStore
