import ObjectStore.Proofs.Access.Reduce
import ObjectStore.Proofs.Json.Equality
import ObjectStore.Proofs.Query.Entrywise

/-!
# What is left of a reduced query

Redundant branches are dropped until there are none (`redundant?_dropRedundant`), so of the branches
that are left none is a part of another one (`irredundant_dropRedundant`). Under `$and` the dropped
ones change nothing (`admitsEntry_and_left_iff`). Neither do they under `$or`, unless a branch that
asks nothing, and so does not count there, takes the place of one that does
(`admitsEntry_or_left_iff`).

A combinator with one branch left gives way to this branch. Its constraints then take the place of
those that the query has under the same keys beside the combinator, and these are lost. So a reduced
query selects all the rows of the query, and others just where such a constraint does not hold
(`reduced_selects`). A combinator that the branch brings along is not reduced any more.
-/

namespace ObjectStore.Access

open Compiler Query

variable {c : Compiler} {v : Valuation} {dropWide : Bool} {branches : List Json} {steps : Nat}
  {key : String} {query others only narrow wide : Object} {objects left : List Object}
  {combinator : Combinator}

/-! ## Dropping until nothing is redundant -/

theorem place_lt_of_redundant? {place : Nat}
    (h : redundant? dropWide branches.zipIdx = some place) : place < branches.length := by
  obtain ⟨⟨dropped, i⟩, hd, _, _, rfl, _⟩ := redundant?_eq_some (by simp [List.nodup_range']) h
  rw [List.mk_mem_zipIdx_iff_getElem?] at hd
  exact (List.getElem?_eq_some_iff.mp hd).1

/-- With as many steps as there are branches, no redundant branch is left. -/
theorem redundant?_dropRedundant (dropWide : Bool) (h : branches.length ≤ steps) :
    redundant? dropWide (dropRedundant dropWide steps branches).zipIdx = none := by
  induction steps generalizing branches with
  | zero =>
    obtain rfl := List.length_eq_zero_iff.mp (Nat.le_zero.mp h)
    rfl
  | succ steps ih =>
    unfold dropRedundant
    cases hplace : redundant? dropWide branches.zipIdx with
    | none => exact hplace
    | some place =>
      have hlt := place_lt_of_redundant? hplace
      apply ih
      rw [List.length_eraseIdx_of_lt hlt]
      omega

theorem pairwise_of_redundant?_eq_none {placed : List (Json × Nat)}
    (h : redundant? dropWide placed = none) :
    placed.Pairwise fun first second => redundantOfPair? dropWide first second = none := by
  induction placed with
  | nil => exact .nil
  | cons first rest ih =>
    rw [redundant?, Option.or_eq_none_iff, List.findSome?_eq_none_iff] at h
    exact .cons h.1 (ih h.2)

/-! ## Parts of plain branches -/

/-- A branch is a part of another one if all its constraints are constraints of the other one. -/
theorem isPartOf_iff_subset (hn : (Json.obj narrow).Plain) (hw : (Json.obj wide).Plain)
    (hsorted : wide.Sorted) : isPartOf (.obj narrow) (.obj wide) = true ↔ narrow ⊆ wide := by
  rw [isPartOf_iff]
  refine forall₂_congr ?_
  intro entry he
  have hentry := Json.plain_obj.mp hn entry he
  constructor
  · intro h
    cases hget : Dict.get? wide entry.1 with
    | none => simp [hget] at h
    | some value =>
      rw [hget, Option.some_beq_some] at h
      have hmem := Dict.mem_of_get? hget
      obtain rfl := (Json.beq_iff_of_plain (Json.plain_obj.mp hw _ hmem) hentry).mp h
      exact hmem
  · intro hmem
    rw [hsorted.get?_eq_some_iff.mpr hmem, Option.some_beq_some]
    exact (Json.beq_iff_of_plain hentry hentry).mpr rfl

/-- A branch that is no part of one that is as long does not have this one as a part either. -/
theorem not_subset_of_isPartOf_ne_true (hn : (Json.obj narrow).Plain) (hw : (Json.obj wide).Plain)
    (hsorted : wide.Sorted) (hlength : narrow.length ≤ wide.length)
    (h : isPartOf (.obj narrow) (.obj wide) ≠ true) : ¬ narrow ⊆ wide ∧ ¬ wide ⊆ narrow := by
  have hnot : ¬ narrow ⊆ wide := fun hsub => h ((isPartOf_iff_subset hn hw hsorted).mpr hsub)
  refine ⟨hnot, fun hsub => hnot ?_⟩
  -- a part with no fewer constraints has all of them
  have hperm := (List.subperm_of_subset hsorted.nodup hsub).perm_of_length_le hlength
  exact hperm.symm.subset

/-- Of a pair that is not found redundant, neither branch is a part of the other one. -/
theorem not_subset_of_redundantOfPair? {first second : Object} {i j : Nat}
    (hf : (Json.obj first).Plain) (hs : (Json.obj second).Plain) (hsf : first.Sorted)
    (hss : second.Sorted) (h : redundantOfPair? dropWide (.obj first, i) (.obj second, j) = none) :
    ¬ first ⊆ second ∧ ¬ second ⊆ first := by
  unfold redundantOfPair? at h
  simp only [constraintCount, Json.obj?, Option.getD_some] at h
  -- it is the shorter one of which it is asked whether it is a part
  by_cases hlength : first.length > second.length
  · simp only [hlength, if_true, ite_eq_right_iff, reduceCtorEq, imp_false] at h
    exact (not_subset_of_isPartOf_ne_true hs hf hsf hlength.le h).symm
  · simp only [hlength, if_false, ite_eq_right_iff, reduceCtorEq, imp_false] at h
    exact not_subset_of_isPartOf_ne_true hf hs hss (Nat.le_of_not_lt hlength) h

/-- Of branches that are objects, none is a part of another one. -/
def Irredundant (branches : List Json) : Prop :=
  branches.Pairwise fun first second =>
    ∀ a b : Object, first = .obj a → second = .obj b → ¬ a ⊆ b ∧ ¬ b ⊆ a

/-- Of the branches that are left, none is a part of another one. -/
theorem irredundant_dropRedundant (hplain : ∀ branch ∈ branches, branch.Plain)
    (hcanonical : ∀ branch ∈ branches, branch.Canonical) (h : branches.length ≤ steps) :
    Irredundant (dropRedundant dropWide steps branches) := by
  have hpairs := pairwise_of_redundant?_eq_none (redundant?_dropRedundant dropWide h)
  unfold Irredundant
  rw [← List.zipIdx_map_fst 0 (dropRedundant dropWide steps branches), List.pairwise_map]
  refine hpairs.imp_of_mem ?_
  rintro ⟨_, i⟩ ⟨_, j⟩ hf hs hpair first second rfl rfl
  have hfirst := mem_of_mem_dropRedundant (List.fst_mem_of_mem_zipIdx hf)
  have hsecond := mem_of_mem_dropRedundant (List.fst_mem_of_mem_zipIdx hs)
  exact not_subset_of_redundantOfPair? (hplain _ hfirst) (hplain _ hsecond)
    (Object.canonical_iff.mpr (hcanonical _ hfirst)).sorted
    (Object.canonical_iff.mpr (hcanonical _ hsecond)).sorted hpair

/-! ## Dropped branches -/

theorem someBranch_map_obj {P : Object → Prop} :
    SomeBranch P (objects.map .obj) ↔ ∃ fields ∈ objects, P fields := by
  simp [SomeBranch]

/-- An `$and` admits what it admits without its redundant branches. -/
theorem admitsEntry_and_left_iff (hplain : ∀ fields ∈ objects, (Json.obj fields).Plain)
    (hsorted : ∀ fields ∈ objects, fields.Sorted)
    (hleft : dropRedundant false steps (objects.map .obj) = left.map Json.obj) :
    c.AdmitsEntry v ("$and", .arr (objects.map .obj))
      ↔ c.AdmitsEntry v ("$and", .arr (left.map .obj)) := by
  rw [admitsEntry_and, admitsEntry_and, ← hleft]
  constructor
  · intro h branch hb
    exact h branch (mem_of_mem_dropRedundant hb)
  · refine forall_of_dropRedundant ?_
    intro narrow hnarrow wide hwide hpart hadmits
    obtain ⟨narrow, hn, rfl⟩ := List.mem_map.mp hnarrow
    obtain ⟨wide, hw, rfl⟩ := List.mem_map.mp hwide
    obtain ⟨_, heq, hadmits⟩ := hadmits
    obtain rfl := Json.obj.inj heq
    have hsub :=
      (isPartOf_iff_subset (hplain narrow hn) (hplain wide hw) (hsorted wide hw)).mp hpart
    rw [admits_iff] at hadmits
    exact ⟨narrow, rfl, admits_iff.mpr fun entry he => hadmits entry (hsub he)⟩

/-- Some branch is of a kind that passes to parts if one of those is that are left without the wide
ones. -/
theorem someBranch_left_iff {P : Object → Prop}
    (hplain : ∀ fields ∈ objects, (Json.obj fields).Plain)
    (hsorted : ∀ fields ∈ objects, fields.Sorted) (hmem : ∀ fields ∈ left, fields ∈ objects)
    (hleft : dropRedundant true steps (objects.map .obj) = left.map Json.obj)
    (hpart : ∀ narrow ∈ objects, ∀ wide ∈ objects, narrow ⊆ wide → P wide → P narrow) :
    SomeBranch P (objects.map .obj) ↔ SomeBranch P (left.map .obj) := by
  rw [someBranch_map_obj, someBranch_map_obj]
  constructor
  · refine exists_left_of_dropRedundant hleft ?_
    intro narrow hn wide hw hpartOf
    rw [isPartOf_iff_subset (hplain narrow hn) (hplain wide hw) (hsorted wide hw)] at hpartOf
    exact hpart narrow hn wide hw hpartOf
  · rintro ⟨fields, hf, hP⟩
    exact ⟨fields, hmem fields hf, hP⟩

/-- Each part of a branch that asks something asks something, if it is a branch too. -/
def PartsAsk (c : Compiler) (branches : List Json) : Prop :=
  ∀ narrow wide : Object, .obj narrow ∈ branches → .obj wide ∈ branches → narrow ⊆ wide →
    c.Asks wide → c.Asks narrow

theorem compilesEntry_map_obj (hkey : Combinator.ofKey? key = some combinator) :
    c.CompilesEntry (key, .arr (objects.map .obj)) ↔ ∀ fields ∈ objects, c.Compiles fields := by
  simp [compilesEntry_combinator hkey]

/-- An `$or` admits what it admits without its redundant branches, if parts of branches that ask
something do so too. -/
theorem admitsEntry_or_left_iff (hplain : ∀ fields ∈ objects, (Json.obj fields).Plain)
    (hsorted : ∀ fields ∈ objects, fields.Sorted) (hmem : ∀ fields ∈ left, fields ∈ objects)
    (hleft : dropRedundant true steps (objects.map .obj) = left.map Json.obj)
    (hcompiles : ∀ fields ∈ objects, c.Compiles fields)
    (hparts : PartsAsk c (objects.map .obj)) :
    c.AdmitsEntry v ("$or", .arr (objects.map .obj))
      ↔ c.AdmitsEntry v ("$or", .arr (left.map .obj)) := by
  have hasks : ∀ narrow ∈ objects, ∀ wide ∈ objects, narrow ⊆ wide → c.Asks wide → c.Asks narrow :=
    fun narrow hn wide hw =>
      hparts narrow wide (List.mem_map_of_mem hn) (List.mem_map_of_mem hw)
  rw [admitsEntry_or ((compilesEntry_map_obj rfl).mpr hcompiles),
    admitsEntry_or
      ((compilesEntry_map_obj rfl).mpr fun fields hf => hcompiles fields (hmem fields hf)),
    someBranch_left_iff hplain hsorted hmem hleft hasks,
    someBranch_left_iff hplain hsorted hmem hleft]
  intro narrow hn wide hw hsub ⟨hwide, hadmits⟩
  rw [admits_iff] at hadmits
  exact ⟨hasks narrow hn wide hw hsub hwide, admits_iff.mpr fun entry he => hadmits entry (hsub he)⟩

/-- A lone branch of an `$and` stands for it. -/
theorem admitsEntry_and_alone :
    c.AdmitsEntry v ("$and", .arr [.obj only]) ↔ ∀ entry ∈ only, c.AdmitsEntry v entry := by
  simp [admitsEntry_and, admits_iff]

/-- A lone branch of an `$or` stands for it, also if it asks nothing. -/
theorem admitsEntry_or_alone (hcompiles : c.Compiles only) :
    c.AdmitsEntry v ("$or", .arr [.obj only]) ↔ ∀ entry ∈ only, c.AdmitsEntry v entry := by
  have hentry : c.CompilesEntry ("$or", .arr ([only].map .obj)) :=
    (compilesEntry_map_obj rfl).mpr (List.forall_mem_singleton.mpr hcompiles)
  rw [← admits_iff]
  refine (admitsEntry_or hentry).trans ?_
  rw [someBranch_map_obj, someBranch_map_obj]
  by_cases hasks : c.Asks only
  · simp [hasks]
  · have hadmits : c.Admits v only := by
      by_contra hnot
      exact hasks (asks_of_not_admits hcompiles hnot)
    simp [hasks, hadmits]

/-! ## A lone branch and the other entries -/

/-- What holds of a query with what is left of a combinator: it holds of the combinator, and of the
other entries that are still there. -/
theorem forall_mem_collapsed_iff {P : String × Json → Prop} (ho : others.Sorted)
    (hkey : ∀ entry ∈ others, entry.1 ≠ key) (hsorted : ∀ fields ∈ left, fields.Sorted)
    (halone : ∀ only ∈ left, P (key, .arr [.obj only]) ↔ ∀ entry ∈ only, P entry) :
    (∀ entry ∈ collapsed key others left, P entry) ↔ P (key, .arr (left.map .obj))
      ∧ ∀ entry ∈ others, entry ∈ collapsed key others left → P entry := by
  match left with
  | [only] =>
    have honly := (hsorted only List.mem_cons_self).subset_merge others
    show (∀ entry ∈ others.merge only, P entry) ↔ P (key, .arr [.obj only])
      ∧ ∀ entry ∈ others, entry ∈ others.merge only → P entry
    rw [halone only List.mem_cons_self]
    constructor
    · intro h
      exact ⟨fun entry he => h entry (honly he), fun entry _ he => h entry he⟩
    · rintro ⟨hbranch, hothers⟩ entry he
      rcases Dict.mem_merge he with h | h
      · exact hothers entry h he
      · exact hbranch entry h
  | [] | _ :: _ :: _ =>
    unfold collapsed
    rw [ho.forall_mem_insert_iff]
    refine and_congr_right' ⟨fun h entry he _ => h entry he (hkey entry he), ?_⟩
    intro h entry he hne
    exact h entry he (Dict.mem_insert_of_ne he hne)

/-- An entry that a lone branch takes the place of has its key, and another value. -/
theorem exists_of_notMem_collapsed {entry : String × Json} (ho : others.Sorted)
    (hkey : entry.1 ≠ key) (hsorted : ∀ fields ∈ left, fields.Sorted) (he : entry ∈ others)
    (hlost : entry ∉ collapsed key others left) :
    ∃ only ∈ left, only ⊆ collapsed key others left
      ∧ ∃ value ≠ entry.2, (entry.1, value) ∈ only := by
  match left with
  | [only] =>
    have honly := (hsorted only List.mem_cons_self).subset_merge others
    have hmem : entry.1 ∈ only.map Prod.fst := by
      by_contra hnot
      apply hlost
      apply Dict.mem_of_get?
      rw [collapsed, Dict.get?_merge_of_notMem hnot]
      exact ho.get?_eq_some_iff.mpr he
    obtain ⟨⟨name, value⟩, hvalue, hname⟩ := List.mem_map.mp hmem
    obtain rfl : name = entry.1 := hname
    refine ⟨only, List.mem_cons_self, honly, value, ?_, hvalue⟩
    rintro rfl
    exact hlost (honly hvalue)
  | [] | _ :: _ :: _ => exact absurd (Dict.mem_insert_of_ne he hkey) hlost

/-- The branches that a query has under a key. -/
def branchesUnder (key : String) (query : Object) : List Json :=
  ((query.get? key).bind Json.arr?).getD []

/-- What is left of a combinator is under its key, unless it is a lone branch: then it is what this
branch has there. -/
theorem branchesUnder_collapsed (hkey : ∀ entry ∈ others, entry.1 ≠ key)
    (hsorted : ∀ fields ∈ left, fields.Sorted) :
    branchesUnder key (collapsed key others left) = left.map .obj
      ∨ ∃ only ∈ left, only ⊆ collapsed key others left
        ∧ branchesUnder key (collapsed key others left) = branchesUnder key only := by
  match left with
  | [only] =>
    have honly := hsorted only List.mem_cons_self
    have hnone : others.get? key = none := by
      refine Option.eq_none_iff_forall_ne_some.mpr ?_
      intro value hget
      exact hkey _ (Dict.mem_of_get? hget) rfl
    refine .inr ⟨only, List.mem_cons_self, honly.subset_merge others, ?_⟩
    rw [branchesUnder, collapsed, Dict.get?_merge, honly.ofList, hnone, Option.or_none]
    rfl
  | [] | _ :: _ :: _ =>
    left
    unfold branchesUnder collapsed
    rw [Dict.get?_insert_self]
    rfl

/-! ## Reduced queries -/

/-- A query is reduced by one of its combinators: it still compiles, none of the branches left is a
part of another one, unless a lone branch brought them along, and of the other entries those got
lost that a lone branch has with another value. -/
structure ReducesTo (c : Compiler) (key : String) (query reduced : Object) : Prop where
  compiles : c.Compiles reduced
  branches : Irredundant (branchesUnder key reduced)
    ∨ ∃ only : Object, .obj only ∈ branchesUnder key query ∧ only ⊆ reduced
      ∧ branchesUnder key reduced = branchesUnder key only
  lost : ∀ entry ∈ query.erase key, entry ∉ reduced →
    ∃ only : Object, .obj only ∈ branchesUnder key query ∧ only ⊆ reduced
      ∧ ∃ value ≠ entry.2, (entry.1, value) ∈ only

/-- A query admits what a reduced one does, as far as the entries do that got lost. -/
def SelectsBesideLost (c : Compiler) (key : String) (query reduced : Object) : Prop :=
  ∀ v, c.Admits v query ↔
    c.Admits v reduced ∧ ∀ entry ∈ query.erase key, entry ∉ reduced → c.AdmitsEntry v entry

/-- A query whose combinator has some objects for branches, all of which compile. -/
structure HasBranches (c : Compiler) (key : String) (query : Object) (objects : List Object) :
    Prop where
  get : query.get? key = some (.arr (objects.map .obj))
  compiles : ∀ fields ∈ objects, c.Compiles fields
  plain : ∀ fields ∈ objects, (Json.obj fields).Plain
  sorted : ∀ fields ∈ objects, fields.Sorted

theorem exists_hasBranches (hkey : Combinator.ofKey? key = some combinator) (hq : query.Canonical)
    (hplain : (Json.obj query).Plain) (hcompiles : c.Compiles query)
    (hget : query.get? key ≠ none) : ∃ objects, HasBranches c key query objects := by
  obtain ⟨value, hvalue⟩ := Option.ne_none_iff_exists'.mp hget
  have hmem := Dict.mem_of_get? hvalue
  obtain ⟨branches, rfl, hbranches⟩ :=
    (compilesEntry_combinator hkey).mp (compiles_iff.mp hcompiles _ hmem)
  obtain ⟨objects, rfl⟩ := exists_map_obj fun branch hb => by
    obtain ⟨fields, rfl, _⟩ := hbranches branch hb
    exact ⟨fields, rfl⟩
  refine ⟨objects, hvalue, (compilesEntry_map_obj hkey).mp (compiles_iff.mp hcompiles _ hmem), ?_,
    ?_⟩
  · intro fields hf
    exact Json.plain_arr.mp (Json.plain_obj.mp hplain _ hmem) _ (List.mem_map_of_mem hf)
  · intro fields hf
    exact (Object.canonical_iff.mpr
      (Json.canonical_arr.mp (hq.inside _ hmem) _ (List.mem_map_of_mem hf))).sorted

/-- Without the combinator there is nothing to reduce. -/
theorem reduceCombinator_of_get?_eq_none (hget : query.get? key = none) :
    reduceCombinator dropWide key query = query := by
  rw [reduceCombinator, hget]
  exact Dict.erase_of_get?_eq_none hget

theorem reducesTo_reduceCombinator (dropWide : Bool)
    (hkey : Combinator.ofKey? key = some combinator)
    (hq : query.Canonical) (hplain : (Json.obj query).Plain) (hcompiles : c.Compiles query) :
    ReducesTo c key query (reduceCombinator dropWide key query) := by
  by_cases hget : query.get? key = none
  · rw [reduceCombinator_of_get?_eq_none hget]
    refine ⟨hcompiles, .inl ?_, ?_⟩
    · rw [branchesUnder, hget]
      exact .nil
    · intro entry he hlost
      exact absurd (Dict.mem_erase.mp he).1 hlost
  obtain ⟨objects, h⟩ := exists_hasBranches hkey hq hplain hcompiles hget
  obtain ⟨left, hleft, hmem⟩ := exists_dropRedundant_eq_map dropWide objects.length objects
  rw [reduceCombinator_eq_collapsed h.get hleft]
  have hothers : (query.erase key).Sorted := hq.sorted.erase key
  have hne : ∀ entry ∈ query.erase key, entry.1 ≠ key := fun entry he => (Dict.mem_erase.mp he).2
  have hsorted : ∀ fields ∈ left, fields.Sorted := fun fields hf => h.sorted fields (hmem fields hf)
  have hunder : ∀ only ∈ left, Json.obj only ∈ branchesUnder key query := by
    intro only ho
    rw [branchesUnder, h.get]
    exact List.mem_map_of_mem (hmem only ho)
  constructor
  case compiles =>
    rw [compiles_iff, forall_mem_collapsed_iff hothers hne hsorted]
    · refine
        ⟨(compilesEntry_map_obj hkey).mpr fun fields hf => h.compiles fields (hmem fields hf), ?_⟩
      intro entry he _
      exact compiles_iff.mp hcompiles entry (Dict.mem_erase.mp he).1
    · intro only _
      have honly : c.CompilesEntry (key, .arr ([only].map .obj)) ↔ _ := compilesEntry_map_obj hkey
      exact honly.trans (List.forall_mem_singleton.trans compiles_iff)
  case branches =>
    rcases branchesUnder_collapsed hne hsorted with heq | ⟨only, ho, hsub, heq⟩
    · left
      rw [heq, ← hleft]
      refine irredundant_dropRedundant ?_ ?_ (by rw [List.length_map])
      · exact List.forall_mem_map.mpr h.plain
      · exact Json.canonical_arr.mp (hq.get? h.get)
    · exact .inr ⟨only, hunder only ho, hsub, heq⟩
  case lost =>
    intro entry he hlost
    obtain ⟨only, ho, hsub, hvalue⟩ :=
      exists_of_notMem_collapsed hothers (hne entry he) hsorted he hlost
    exact ⟨only, hunder only ho, hsub, hvalue⟩

/-- A combinator that admits the same without its redundant branches, and for which a lone branch
may stand, is reduced without losing more than the other entries. -/
theorem selectsBesideLost_reduceCombinator (hkey : Combinator.ofKey? key = some combinator)
    (hq : query.Canonical) (hplain : (Json.obj query).Plain) (hcompiles : c.Compiles query)
    (hsame : ∀ (objects left : List Object) (v : Valuation), HasBranches c key query objects →
      (∀ fields ∈ left, fields ∈ objects) →
      dropRedundant dropWide objects.length (objects.map .obj) = left.map Json.obj →
        (c.AdmitsEntry v (key, .arr (objects.map .obj))
          ↔ c.AdmitsEntry v (key, .arr (left.map .obj))))
    (halone : ∀ only v, c.Compiles only →
      (c.AdmitsEntry v (key, .arr [.obj only]) ↔ ∀ entry ∈ only, c.AdmitsEntry v entry)) :
    SelectsBesideLost c key query (reduceCombinator dropWide key query) := by
  intro v
  by_cases hget : query.get? key = none
  · rw [reduceCombinator_of_get?_eq_none hget]
    refine (and_iff_left ?_).symm
    intro entry he hlost
    exact absurd (Dict.mem_erase.mp he).1 hlost
  obtain ⟨objects, h⟩ := exists_hasBranches hkey hq hplain hcompiles hget
  obtain ⟨left, hleft, hmem⟩ := exists_dropRedundant_eq_map dropWide objects.length objects
  have hquery : c.Admits v query ↔ c.AdmitsEntry v (key, .arr (left.map .obj))
      ∧ ∀ entry ∈ query.erase key, c.AdmitsEntry v entry := by
    rw [admits_iff, hq.sorted.forall_mem_iff key, h.get, ← hsame objects left v h hmem hleft]
    simp [Dict.mem_erase]
  have hreduced : c.Admits v (collapsed key (query.erase key) left) ↔
      c.AdmitsEntry v (key, .arr (left.map .obj))
        ∧ ∀ entry ∈ query.erase key, entry ∈ collapsed key (query.erase key) left →
          c.AdmitsEntry v entry := by
    rw [admits_iff]
    refine forall_mem_collapsed_iff (hq.sorted.erase key) (fun entry he => (Dict.mem_erase.mp he).2)
      (fun fields hf => h.sorted fields (hmem fields hf)) ?_
    intro only ho
    exact halone only v (h.compiles only (hmem only ho))
  rw [reduceCombinator_eq_collapsed h.get hleft, hquery, hreduced, and_assoc]
  refine and_congr_right' ?_
  constructor
  · intro hall
    exact ⟨fun entry he _ => hall entry he, fun entry he _ => hall entry he⟩
  · rintro ⟨hthere, hlost⟩ entry he
    by_cases hin : entry ∈ collapsed key (query.erase key) left
    · exact hthere entry he hin
    · exact hlost entry he hin

/-- A query that compiles does so reduced, by its `$or` and by its `$and`. Without the redundant
branches of its `$and` it selects the same rows, as far as the entries do that a lone branch took
the place of. So it does without those of its `$or`, if no branch that asks something has a part
that asks nothing. -/
theorem reduced_selects (c : Compiler) (query : Object) (hq : query.Canonical)
    (hplain : (Json.obj query).Plain) (hcompiles : c.Compiles query) :
    (ReducesTo c "$or" query (reduceOr query) ∧ ReducesTo c "$and" query (reduceAnd query))
      ∧ SelectsBesideLost c "$and" query (reduceAnd query)
      ∧ (PartsAsk c (branchesUnder "$or" query) →
        SelectsBesideLost c "$or" query (reduceOr query)) := by
  refine ⟨⟨reducesTo_reduceCombinator true rfl hq hplain hcompiles, reducesTo_reduceCombinator false
    rfl hq hplain hcompiles⟩, ?_, ?_⟩
  · refine selectsBesideLost_reduceCombinator rfl hq hplain hcompiles ?_ ?_
    · intro objects left v h _ hleft
      exact admitsEntry_and_left_iff h.plain h.sorted hleft
    · intro only v _
      exact admitsEntry_and_alone
  · intro hparts
    refine selectsBesideLost_reduceCombinator rfl hq hplain hcompiles ?_ ?_
    · intro objects left v h hmem hleft
      refine admitsEntry_or_left_iff h.plain h.sorted hmem hleft h.compiles ?_
      rw [branchesUnder, h.get] at hparts
      exact hparts
    · intro only v honly
      exact admitsEntry_or_alone honly

/-- People of the age of five, asked for once more with an id, beside a constraint on the id. -/
def fiveAndFive : Object :=
  [("$or", .arr [.obj (ofAge 5), .obj [("age", .int 5), ("objectId", .str "a")]]),
    ("objectId", .obj [("$ne", .str "b")])]

/-- The branch with the id is dropped, and the other one joins the constraint on the id. -/
theorem fiveAndFive_reduced_selects :
    people.Compiles fiveAndFive
      ∧ reduceOr fiveAndFive = [("age", .int 5), ("objectId", .obj [("$ne", .str "b")])]
      ∧ ∀ v, people.Admits v fiveAndFive ↔ people.Admits v (reduceOr fiveAndFive) := by
  have hcanonical : fiveAndFive.Canonical := Object.canonical_of_isCanonical (by decide)
  have hplain : (Json.obj fiveAndFive).Plain := by
    simp [fiveAndFive, ofAge, Json.plain_obj, Json.plain_arr, Json.Plain.int, Json.Plain.str]
  have hcompiles : people.Compiles fiveAndFive := ⟨_, rfl⟩
  have hreduced : reduceOr fiveAndFive
      = [("age", .int 5), ("objectId", .obj [("$ne", .str "b")])] := rfl
  have hparts : PartsAsk people (branchesUnder "$or" fiveAndFive) := by
    intro narrow wide hnarrow _ _ _
    have hnarrow : narrow = ofAge 5 ∨ narrow = [("age", .int 5), ("objectId", .str "a")] := by
      simpa [branchesUnder, fiveAndFive, Dict.get?, Json.arr?] using hnarrow
    rcases hnarrow with rfl | rfl
    · exact asks_ofAge 5
    · exact ⟨_, rfl, List.cons_ne_nil _ _⟩
  refine ⟨hcompiles, hreduced, ?_⟩
  intro v
  have hselects := (reduced_selects people fiveAndFive hcanonical hplain hcompiles).2.2 hparts v
  rw [hselects, and_iff_left]
  -- the constraint on the id is still there
  intro entry he hlost
  rw [hreduced] at hlost
  simp_all [fiveAndFive, Dict.erase]

/-- Who has no age, beside a lone branch that asks for an age. -/
def fiveWithoutAge : Object :=
  [("$and", .arr [.obj (ofAge 5)]), ("age", .obj [("$exists", .bool false)])]

/-- A lone branch with branches of which one is a part of the other one. -/
def fiveInside : Object :=
  [("$or", .arr [.obj [("$or", .arr [.obj (ofAge 5),
    .obj [("age", .int 5), ("objectId", .str "a")]])]])]

/-- A lone branch takes the place of another constraint on the same field, and more rows are
selected; it brings along branches that are redundant; and a branch that asks nothing takes the
place of one that does. -/
theorem reduced_selects_otherwise :
    (people.Compiles fiveWithoutAge
        ∧ ¬ (people.Admits (fun clause => some (clause.any fun token => token.param?.isSome))
            fiveWithoutAge
          ↔ people.Admits (fun clause => some (clause.any fun token => token.param?.isSome))
            (reduceAnd fiveWithoutAge)))
      ∧ (people.Compiles fiveInside ∧ ¬ Irredundant (branchesUnder "$or" (reduceOr fiveInside)))
      ∧ (people.Compiles [("$or", .arr [.obj [], .obj (ofAge 5)])]
        ∧ ¬ (people.Admits (fun _ => some false) [("$or", .arr [.obj [], .obj (ofAge 5)])]
          ↔ people.Admits (fun _ => some false)
            (reduceOr [("$or", .arr [.obj [], .obj (ofAge 5)])]))) := by
  refine ⟨⟨⟨_, rfl⟩, ?_⟩, ⟨⟨_, rfl⟩, ?_⟩, ⟨_, rfl⟩, ?_⟩
  · intro hsame
    obtain ⟨_, hout, hholds⟩ := hsame.mpr ⟨_, rfl, List.forall_mem_singleton.mpr rfl⟩
    obtain rfl := Except.ok.inj hout
    exact nomatch hholds _ (List.mem_cons_of_mem _ List.mem_cons_self)
  · intro h
    have hpair := List.rel_of_pairwise_cons h List.mem_cons_self _ _ rfl rfl
    exact hpair.1 (by simp [ofAge])
  · intro hsame
    have hadmits : people.Admits (fun _ => some false) [] := admits_iff.mpr nofun
    obtain ⟨_, hout, hholds⟩ := hsame.mpr hadmits
    obtain rfl := Except.ok.inj hout
    exact nomatch hholds _ List.mem_cons_self

end ObjectStore.Access
