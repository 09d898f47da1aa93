import ObjectStore.Proofs.Access.Asked
import ObjectStore.Proofs.Access.Grammar

/-!
# The keys that a restricted query has

A query is restricted for its caller by putting more into it: a constraint on a permission column,
and alternatives that point at the caller. Whatever the query had under some key, on any of its
levels, the restricted query has on one of its own, so what is true of all keys of the restricted
query is true of all keys of the query (`allKeys_of_restrict`, `allKeys_of_restrictToPointers`).

Two checks look at the keys of all levels: validation (`allKeys_of_isValid`), and the refusal of
queries that ask for the groups that may write (`allKeys_of_refuseWriterQuery`).
-/

namespace ObjectStore

open Compiler (AsksOnly)

namespace Query

variable {P : String → Prop} {query after fields : Object}

/-- All keys on all levels of a query have a property. -/
def AllKeys (P : String → Prop) (query : Object) : Prop :=
  ∀ level, IsLevelOf level query → ∀ entry ∈ level, P entry.1

/-- The keys on all levels are those of the query itself and those of its branches. -/
theorem allKeys_iff : AllKeys P query ↔
    (∀ entry ∈ query, P entry.1) ∧ ∀ fields, IsBranchOf fields query → AllKeys P fields := by
  constructor
  · intro h
    refine ⟨h query (.self query), ?_⟩
    intro fields hbranch level hlevel
    exact h level (.inside hbranch hlevel)
  · intro h level hlevel
    cases hlevel with
    | self => exact h.1
    | inside hbranch hlevel => exact h.2 _ hbranch level hlevel

/-- The keys of a query are those of its entries, with what stands in these. -/
theorem allKeys_iff_entries : AllKeys P query ↔ ∀ entry ∈ query, AllKeys P [entry] := by
  rw [allKeys_iff]
  constructor
  · intro h entry he
    rw [allKeys_iff, List.forall_mem_singleton]
    refine ⟨h.1 entry he, ?_⟩
    intro fields hbranch
    obtain ⟨key, items, hkey, hentry, hfields⟩ := hbranch
    obtain rfl := List.mem_singleton.mp hentry
    exact h.2 fields ⟨key, items, hkey, he, hfields⟩
  · intro h
    refine ⟨fun entry he => (allKeys_iff.mp (h entry he)).1 entry List.mem_cons_self, ?_⟩
    intro fields hbranch
    obtain ⟨key, items, hkey, hentry, hfields⟩ := hbranch
    exact (allKeys_iff.mp (h _ hentry)).2 fields ⟨key, items, hkey, List.mem_cons_self, hfields⟩

/-- What is true of all keys is true of the fields that a query asks about. -/
theorem AllKeys.asksOnly (h : AllKeys P query) : AsksOnly P query := by
  induction query using Query.induction with
  | h query ih =>
    rw [Compiler.asksOnly_iff]
    intro entry he
    obtain ⟨key, value⟩ := entry
    cases hkey : Combinator.ofKey? key with
    | none => exact (Compiler.asksOnly_field hkey).mpr ((allKeys_iff.mp h).1 _ he)
    | some combinator =>
      have hsome : (Combinator.ofKey? key).isSome = true := by rw [hkey]; rfl
      cases value with
      | arr items =>
        refine (Compiler.asksOnly_branches hsome).mpr ?_
        intro fields hfields
        have hbranch : IsBranchOf fields query := ⟨key, items, hsome, he, hfields⟩
        exact ih fields hbranch ((allKeys_iff.mp h).2 fields hbranch)
      | _ => exact (Compiler.asksOnly_clause hsome).mpr fun _ h => (List.not_mem_nil h).elim

/-- Whatever stands in a query under some key, another query has something under that key, and under
a combinator all the branches and maybe more. -/
def IsIncludedIn (query after : Object) : Prop :=
  ∀ key value, query.get? key = some value → ∃ value', after.get? key = some value' ∧
    ∀ items, (Combinator.ofKey? key).isSome = true → value = .arr items →
      ∃ items', value' = .arr items' ∧ ∀ item ∈ items, item ∈ items'

/-- A query has no keys but those of one that it is included in. -/
theorem IsIncludedIn.allKeys (h : IsIncludedIn query after) (hq : query.Sorted)
    (hafter : AllKeys P after) : AllKeys P query := by
  rw [allKeys_iff] at hafter ⊢
  constructor
  · intro entry he
    obtain ⟨value', hvalue', _⟩ := h _ _ (hq.get?_eq_some_iff.mpr he)
    exact hafter.1 (entry.1, value') (Dict.mem_of_get? hvalue')
  · intro fields hbranch
    obtain ⟨key, items, hkey, hentry, hfields⟩ := hbranch
    obtain ⟨value', hvalue', hitems⟩ := h _ _ (hq.get?_eq_some_iff.mpr hentry)
    obtain ⟨items', rfl, hsub⟩ := hitems items hkey rfl
    exact hafter.2 fields ⟨key, items', hkey, Dict.mem_of_get? hvalue', hsub _ hfields⟩

/-- Inclusion is transitive: branches that were kept are kept on. -/
theorem IsIncludedIn.trans {first second third : Object} (h : IsIncludedIn first second)
    (h' : IsIncludedIn second third) : IsIncludedIn first third := by
  intro key value hvalue
  obtain ⟨value', hvalue', hitems⟩ := h key value hvalue
  obtain ⟨value'', hvalue'', hitems'⟩ := h' key value' hvalue'
  refine ⟨value'', hvalue'', ?_⟩
  intro items hkey heq
  obtain ⟨more, hmore, hsub⟩ := hitems items hkey heq
  obtain ⟨most, hmost, hsub'⟩ := hitems' more hkey hmore
  exact ⟨most, hmost, fun item hi => hsub' item (hsub item hi)⟩

/-- Storing an entry includes the query, if nothing stood under the key or the key is of a field. -/
theorem isIncludedIn_insert {key : String} (value : Json)
    (hkey : query.get? key = none ∨ Combinator.ofKey? key = none) :
    IsIncludedIn query (query.insert key value) := by
  intro other found hfound
  by_cases hother : other = key
  · subst hother
    refine ⟨value, Dict.get?_insert_self .., ?_⟩
    intro items hsome _
    rcases hkey with hnone | hnone
    · cases hnone.symm.trans hfound
    · rw [hnone] at hsome
      cases hsome
  · refine ⟨found, (Dict.get?_insert_of_ne _ _ hother).trans hfound, ?_⟩
    intro items _ hitems
    exact ⟨items, hitems, fun _ hi => hi⟩

end Query

namespace Access

open Query Result

variable {P : String → Prop} {query permitted : Object} {column field key user : String}
  {constraint : Json} {left alternatives : List Object} {s : Schema} {op : Operation}
  {groups : List String}

/-! ## Permission columns -/

/-- A query is included in the query with one more branch. -/
theorem isIncludedIn_addBranch (query branch : Object) :
    IsIncludedIn query (addBranch query branch) := by
  intro key value hvalue
  by_cases hkey : key = "$and"
  · subst hkey
    refine ⟨_, Dict.get?_insert_self .., fun items _ hitems => ⟨_, rfl, ?_⟩⟩
    rw [hvalue, hitems]
    exact fun item hi => List.mem_append_left _ hi
  · refine ⟨value, (Dict.get?_insert_of_ne _ _ hkey).trans hvalue, ?_⟩
    intro items _ hitems
    exact ⟨items, hitems, fun _ hi => hi⟩

/-- A restricted query has all keys that the query has. -/
theorem allKeys_of_restrict (hcolumn : Combinator.ofKey? column = none) (hq : query.Sorted)
    (h : AllKeys P (restrict query column constraint)) : AllKeys P query := by
  have hstored : IsIncludedIn query (query.insert column constraint) :=
    isIncludedIn_insert constraint (Or.inr hcolumn)
  have hincluded : IsIncludedIn query (restrict query column constraint) := by
    unfold restrict
    split
    · split
      · exact hstored
      · exact hstored.trans (isIncludedIn_addBranch _ _)
    · exact hstored
  exact hincluded.allKeys hq h

/-! ## Alternatives -/

/-- Queries left under one combinator have the keys of the query that is made of them. -/
theorem allKeys_of_aloneWith (hkey : (Combinator.ofKey? key).isSome = true)
    (h : AllKeys P (aloneWith key left)) : ∀ fields ∈ left, AllKeys P fields := by
  intro fields hf
  unfold aloneWith at h
  split at h
  next only => exact List.mem_singleton.mp hf ▸ h
  next =>
    exact (allKeys_iff.mp h).2 fields ⟨key, _, hkey, List.mem_cons_self, List.mem_map_of_mem hf⟩

/-- An alternative has all keys that its query has. -/
theorem allKeys_of_alternative (hq : query.Canonical) (hp : pointsTo s field user = .ok constraint)
    (h : AllKeys P (alternative query field constraint)) : AllKeys P query := by
  unfold alternative at h
  by_cases hfield : query.contains field = true
  · rw [if_pos hfield] at h
    obtain ⟨left, _, hleft, hreduced⟩ := exists_reducedPair hq.sorted field constraint
    rw [hreduced] at h
    -- what is left of the pair may be one of the two, and then it holds the entries of the other
    have hentries : ∀ fields ∈ left, ∀ entry ∈ fields, AllKeys P [entry] := fun fields hf =>
      allKeys_iff_entries.mp (allKeys_of_aloneWith rfl h fields hf)
    have hkept := forall_of_reducedPair (isExact_pointerBranch hp) hleft hentries
    exact allKeys_iff_entries.mpr hkept.2
  · rw [if_neg hfield] at h
    have hnone : query.get? field = none := by
      rw [Dict.contains, Bool.not_eq_true] at hfield
      exact Option.isSome_eq_false_iff.mp hfield |> Option.isNone_iff_eq_none.mp
    exact (isIncludedIn_insert constraint (Or.inl hnone)).allKeys hq.sorted h

/-- What pointer fields permit has all keys that the query has. -/
theorem allKeys_of_restrictToPointers (hq : query.Canonical)
    (hp : restrictToPointers s op query groups = .ok (some permitted)) (h : AllKeys P permitted) :
    AllKeys P query := by
  rcases restrictToPointers_eq_ok hp with ⟨_, rfl⟩ | ⟨hne, user, alternatives, _, hmade, rfl⟩
  · exact h
  · obtain ⟨left, hleft, hmem, _, hany⟩ :=
      exists_anyAlternative (hmade.ne_nil hne) fun made hm => (hmade.canonical hq hm).sorted
    rw [hany] at h
    obtain ⟨made, hm⟩ := List.exists_mem_of_ne_nil left hleft
    obtain ⟨field, _, constraint, hpoints, rfl⟩ := hmade.exists_field (hmem made hm)
    exact allKeys_of_alternative hq hpoints (allKeys_of_aloneWith rfl h _ hm)

/-! ## Checks of all keys -/

/-- All keys of a valid query are such that a query may have. -/
theorem allKeys_of_isValid (hq : query.Canonical) (h : IsValid query) :
    AllKeys (fun key => isQueryKey key = true) query := by
  intro level hlevel entry he
  have hlegal := (isValid_iff_levels hq).mp h level hlevel entry he
  rw [isQueryKey, Bool.or_eq_true, isFieldName_iff, List.contains_iff_mem]
  exact hlegal.key

/-- No member asks for writers if none is named so and no clause among them asks. -/
theorem membersAskForWriters_eq_false {members : Object}
    (h : membersAskForWriters members = false) :
    ∀ entry ∈ members, entry.1 ≠ writeColumn ∧
      ((Combinator.ofKey? entry.1).isSome = true → clauseAsksForWriters entry.2 = false) := by
  induction members with
  | nil => exact fun _ he => (List.not_mem_nil he).elim
  | cons entry rest ih =>
    obtain ⟨key, value⟩ := entry
    simp only [membersAskForWriters, Bool.or_eq_false_iff, decide_eq_false_iff_not,
      Bool.and_eq_false_imp] at h
    exact List.forall_mem_cons.mpr ⟨h.1, ih h.2⟩

/-- No branch asks for writers if the list does not. -/
theorem branchesAskForWriters_eq_false {branches : List Json}
    (h : branchesAskForWriters branches = false) :
    ∀ branch ∈ branches, asksForWriters branch = false := by
  induction branches with
  | nil => exact fun _ hb => (List.not_mem_nil hb).elim
  | cons branch rest ih =>
    rw [branchesAskForWriters, Bool.or_eq_false_iff] at h
    exact List.forall_mem_cons.mpr ⟨h.1, ih h.2⟩

/-- A query that is not refused for it has the column of writers on none of its levels. -/
theorem allKeys_of_refuseWriterQuery (h : refuseWriterQuery query = .ok ()) :
    AllKeys (· ≠ writeColumn) query := by
  have hquery : membersAskForWriters query = false := by
    unfold refuseWriterQuery at h
    by_cases hasks : membersAskForWriters query = true
    · rw [if_pos hasks] at h
      cases h
    · exact Bool.eq_false_iff.mpr hasks
  clear h
  induction query using Query.induction with
  | h query ih =>
    have hmembers := membersAskForWriters_eq_false hquery
    refine allKeys_iff.mpr ⟨fun entry he => (hmembers entry he).1, ?_⟩
    intro fields hbranch
    obtain ⟨key, items, hkey, hentry, hfields⟩ := hbranch
    have hclause : branchesAskForWriters items = false := (hmembers _ hentry).2 hkey
    exact ih fields ⟨key, items, hkey, hentry, hfields⟩
      (branchesAskForWriters_eq_false hclause _ hfields)

end Access

end ObjectStore
