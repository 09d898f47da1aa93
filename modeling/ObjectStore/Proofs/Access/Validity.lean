import ObjectStore.Proofs.Access.Validate
import ObjectStore.Proofs.Query.Entrywise

/-!
# Validity goes entry by entry

As long as no constraint is moved into branches, a canonical query is valid if each of its entries
is: its key must be one that a query may have, the options of a pattern must be known ones, and a
combinator must have a list of valid queries (`isValid_iff`).

The branches of `$or`, `$and` and `$nor` are queries themselves. `Query.IsLevelOf` tells which
queries stand in a query at any depth, itself among them, and `Query.induction` is the induction
that goes from the branches of a query to the query.
-/

/-! ## Queries inside queries -/

namespace ObjectStore.Query

variable {query fields level : Object}

/-- A branch of a combinator of a query. -/
def IsBranchOf (fields query : Object) : Prop :=
  ∃ key branches, (Combinator.ofKey? key).isSome = true ∧ (key, .arr branches) ∈ query
    ∧ .obj fields ∈ branches

/-- A query stands in another one: it is that query, or stands in a branch of it. -/
inductive IsLevelOf : Object → Object → Prop
  | self (query : Object) : IsLevelOf query query
  | inside {level fields query : Object} :
    IsBranchOf fields query → IsLevelOf level fields → IsLevelOf level query

/-- A branch is smaller than its query. -/
theorem sizeOf_lt_of_isBranchOf (h : IsBranchOf fields query) : sizeOf fields < sizeOf query := by
  obtain ⟨key, branches, _, hentry, hbranch⟩ := h
  have hentry := List.sizeOf_lt_of_mem hentry
  have hfields := List.sizeOf_lt_of_mem hbranch
  simp only [Prod.mk.sizeOf_spec, Json.arr.sizeOf_spec, Json.obj.sizeOf_spec] at hentry hfields
  omega

/-- What a query has whenever its branches have it, all queries have. -/
theorem induction {P : Object → Prop}
    (h : ∀ query, (∀ fields, IsBranchOf fields query → P fields) → P query) (query : Object) :
    P query :=
  h query fun fields hbranch =>
    have := sizeOf_lt_of_isBranchOf hbranch
    induction h fields
termination_by sizeOf query

/-- A branch of a canonical query is canonical. -/
theorem IsBranchOf.canonical (h : IsBranchOf fields query) (hq : query.Canonical) :
    fields.Canonical := by
  obtain ⟨_, _, _, hentry, hbranch⟩ := h
  exact Object.canonical_iff.mpr (Json.canonical_arr.mp (hq.inside _ hentry) _ hbranch)

end ObjectStore.Query

/-! ## Valid entries -/

namespace ObjectStore.Access

open Result

variable {moving : Bool} {query fields : Object} {branches : List Json} {key : String}
  {value : Json}
  {entry : String × Json}

/-- A query is found valid, where constraints are moved or not. -/
def Accepts (moving : Bool) (query : Object) : Prop :=
  ∃ settled, validate moving query = .ok settled

/-- A query is found valid where no constraint is moved. -/
def IsValid (query : Object) : Prop := ∃ settled, validate false query = .ok settled

/-- An entry of a query is found valid. -/
structure IsValidEntry (entry : String × Json) : Prop where
  notAcl : entry.1 ≠ aclField
  member : validateMember entry = .ok ()
  branches : (Combinator.ofKey? entry.1).isSome = true →
    ∃ branches, checkClause false entry.1 entry.2 = .ok branches

/-! ## Branches -/

/-- A branch is valid if it is a valid query. -/
theorem checkBranch_isOk_iff {branch : Json} :
    (∃ checked, checkBranch moving branch = .ok checked) ↔
      ∃ fields, branch = .obj fields ∧ Accepts moving fields := by
  cases branch with
  | obj fields =>
    simp only [checkBranch, bind_eq_ok, pure_eq_ok, Accepts, validate, Json.obj.injEq]
    constructor
    · rintro ⟨_, settled, hsettled, rfl⟩
      exact ⟨fields, rfl, settled, hsettled⟩
    · rintro ⟨_, rfl, settled, hsettled⟩
      exact ⟨_, settled, hsettled, rfl⟩
  | null | bool | int | double | str | arr => simp [checkBranch]

/-- Branches are valid if each of them is a valid query. -/
theorem checkBranches_isOk_iff : (∃ checked, checkBranches moving branches = .ok checked) ↔
    ∀ branch ∈ branches, ∃ fields, branch = .obj fields ∧ Accepts moving fields := by
  induction branches with
  | nil => simp [checkBranches]
  | cons branch rest ih =>
    rw [List.forall_mem_cons, ← ih, ← checkBranch_isOk_iff]
    simp only [checkBranches, bind_eq_ok, pure_eq_ok]
    constructor
    · rintro ⟨_, first, hfirst, others, hothers, rfl⟩
      exact ⟨⟨first, hfirst⟩, others, hothers⟩
    · rintro ⟨⟨first, hfirst⟩, others, hothers⟩
      exact ⟨_, first, hfirst, others, hothers, rfl⟩

/-- A combinator is valid if it has a list of valid queries, which must have members unless the
combinator may have no branches. -/
theorem checkClause_isOk_iff :
    (∃ checked, checkClause moving key value = .ok checked) ↔ ∃ branches, value = .arr branches ∧
      (branches = [] → allowsNoBranches key = true) ∧
        ∀ branch ∈ branches, ∃ fields, branch = .obj fields ∧ Accepts moving fields := by
  cases value with
  | arr branches =>
    cases hallows : allowsNoBranches key <;> cases branches <;>
      simp [checkClause, hallows, checkBranches_isOk_iff]
  | null | bool | int | double | str | obj => simp [checkClause]

/-! ## Entries -/

/-- The branches of a combinator are taken where they are found valid, and stay what they were. -/
theorem takeBranches_eq_ok_iff (hq : query.Canonical) (hkey : key ∈ ["$or", "$and", "$nor"]) :
    takeBranches (checkMembers false query) query key = .ok query ↔
      ∀ value, query.get? key = some value → ∃ branches, checkClause false key value
        = .ok branches := by
  have hchecked := get?_checkMembers false query (isSome_ofKey? hkey)
  unfold takeBranches
  cases hget : query.get? key with
  | none => simp
  | some value =>
    rw [hget, Option.map_some] at hchecked
    simp only [hchecked, Option.some.injEq, forall_eq']
    constructor
    · intro h
      obtain ⟨branches, hbranches, _⟩ := bind_eq_ok.mp h
      exact ⟨branches, hbranches⟩
    · rintro ⟨branches, hbranches⟩
      obtain rfl := checkClause_eq_self (hq.get? hget) hbranches
      rw [hbranches]
      exact congrArg Except.ok (hq.sorted.insert_eq_self hget)

/-- A canonical query is valid if it does not ask for the `ACL`, its combinators are valid and so
are its members. -/
theorem isValid_iff_settles (hq : query.Canonical) : IsValid query ↔
    query.contains aclField = false
      ∧ (∀ key ∈ ["$or", "$and", "$nor"],
        takeBranches (checkMembers false query) query key = .ok query)
      ∧ query.forM validateMember = .ok () := by
  have hsame : ∀ key ∈ ["$or", "$and", "$nor"], ∀ settled,
      takeBranches (checkMembers false query) query key = .ok settled → settled = query := by
    intro key hkey settled h
    refine takeBranches_eq_self hq.sorted ?_ h
    intro value branches hvalue hchecked
    rw [get?_checkMembers false query (isSome_ofKey? hkey), hvalue, Option.map_some] at hchecked
    exact checkClause_eq_self (hq.get? hvalue) (Option.some.inj hchecked)
  constructor
  · rintro ⟨settled, h⟩
    obtain ⟨hacl, ors, ands, hors, hands, hnors, hmembers⟩ := settle_eq_ok h
    obtain rfl := hsame "$or" (by simp) ors hors
    obtain rfl := hsame "$and" (by simp) ands hands
    obtain rfl := hsame "$nor" (by simp) settled hnors
    refine ⟨hacl, ?_, hmembers⟩
    intro key hkey
    simp only [List.mem_cons, List.not_mem_nil, or_false] at hkey
    rcases hkey with rfl | rfl | rfl
    · exact hors
    · exact hands
    · exact hnors
  · rintro ⟨hacl, htake, hmembers⟩
    refine ⟨query, ?_⟩
    rw [validate, settle]
    simp [hacl, htake "$or" (by simp), htake "$and" (by simp), htake "$nor" (by simp), hmembers,
      bind, Except.bind, pure, Except.pure]

/-- A canonical query is valid if each of its entries is. -/
theorem isValid_iff (hq : query.Canonical) :
    IsValid query ↔ ∀ entry ∈ query, IsValidEntry entry := by
  rw [isValid_iff_settles hq]
  constructor
  · rintro ⟨hacl, htake, hmembers⟩ entry hentry
    have hget := hq.sorted.get?_eq_some_iff.mpr hentry
    refine ⟨?_, eq_ok_of_forM hmembers hentry, ?_⟩
    · intro hkey
      rw [hkey] at hget
      simp [Dict.contains, hget] at hacl
    · intro hkey
      have hmem := mem_of_isSome_ofKey? hkey
      exact (takeBranches_eq_ok_iff hq hmem).mp (htake _ hmem) _ hget
  · intro h
    refine ⟨?_, ?_, ?_⟩
    · cases hget : query.get? aclField with
      | none => simp [Dict.contains, hget]
      | some value => exact absurd rfl (h _ (Dict.mem_of_get? hget)).notAcl
    · intro key hkey
      refine (takeBranches_eq_ok_iff hq hkey).mpr ?_
      intro value hvalue
      exact (h _ (Dict.mem_of_get? hvalue)).branches (isSome_ofKey? hkey)
    · exact forM_eq_ok fun entry hentry => (h entry hentry).member

/-- The keys of a query that are no field names may have any value without options of a pattern. -/
theorem validateMember_special (hkey : key ∈ specialKeys) (hvalue : value.get? "$options" = none) :
    validateMember (key, value) = .ok () := by
  have hqueryKey : isQueryKey key = true := by
    rw [isQueryKey, List.contains_iff_mem.mpr hkey, Bool.or_true]
  have hoptions : validateOptions value = .ok () := by
    rw [validateOptions, hvalue]
    rfl
  rw [validateMember, hoptions, hqueryKey]
  rfl

end ObjectStore.Access
