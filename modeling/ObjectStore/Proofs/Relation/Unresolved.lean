import ObjectStore.Proofs.Query.Levels
import ObjectStore.Proofs.Relation.Resolve

/-!
# What resolving relations leaves to the compiler

Resolving relations goes through the levels of a query twice: first `$relatedTo` gives way to a
constraint on the object id, then each relation field does. On one level, nothing is asked
afterwards but the object id and what stands under other keys (`settlesOwn_resolveOwnRelatedTo`,
`settlesOwn_resolveOwnFields`). So the resolved query asks about the object id and what is left
unresolved (`ensures_resolve_asksOnly`), and that is all that stands below `$nor`, however it is
named.
-/

namespace ObjectStore

open Compiler (AsksOnly)
open Query Statement Work

variable {P : String → Prop} {query : Object}

/-! ## All levels -/

/-- Nothing is asked after a change of a level but the object id and what was asked under keys that
the change does not settle. -/
def SettlesOwn (settled : String → Bool) (own : Object → Work Object) : Prop :=
  ∀ level s, Ensures IsLookup s (own level) fun after _ =>
    ∀ entry ∈ after, entry.1 = objectIdField ∨ entry ∈ level ∧ settled entry.1 = false

/-- After a change that settles some keys on one level, what stands in a query asks for the object
id or stood in it before, under a key that is not settled. -/
theorem ensures_descend_settles {own : Object → Work Object} {settled : String → Bool}
    (hown : SettlesOwn settled own) (query : Object) (s : Session) :
    Ensures IsLookup s (descend own query) fun after _ => query.Canonical →
      ∀ entry, StandsIn entry after →
        entry.1 = objectIdField ∨ StandsIn entry query ∧ settled entry.1 = false := by
  have hlevels : IsLevelwise IsLookup s (fun query after _ => query.Canonical →
      ∀ entry, StandsIn entry after →
        entry.1 = objectIdField ∨ StandsIn entry query ∧ settled entry.1 = false) own := by
    constructor
    · intro query after s s' _ h
      exact h
    · intro level ors ands s _ hors hands
      refine (hown _ s).mono ?_
      intro after s' _ hafter hlevel entry hs
      have hsorted : (withBranches level ors ands).Sorted :=
        sorted_putList ands (sorted_putList ors hlevel.sorted)
      rcases standsIn_iff.mp hs with ⟨hkey, he⟩ | ⟨fields, ⟨clause, hclause, hkey, hbranch⟩, hs⟩
      · refine (hafter entry he).imp_right fun ⟨hmem, hsettled⟩ => ⟨?_, hsettled⟩
        -- the entry is no combinator, so it is one of the level
        have hget := hsorted.get?_eq_some_iff.mpr hmem
        rw [get?_withBranches_of_not_isDescended hkey] at hget
        exact standsIn_iff.mpr (Or.inl ⟨hkey, Dict.mem_of_get? hget⟩)
      · have hmem : clause ∈ withBranches level ors ands := by
          refine ((hafter clause hclause).resolve_left ?_).1
          intro hid
          rw [hid] at hkey
          exact absurd hkey (by decide)
        obtain ⟨before, hbefore, hbranches⟩ :=
          exists_of_isBranch_withBranches hlevel.sorted hors hands ⟨clause, hmem, hkey, hbranch⟩
        refine (hbranches (canonical_of_isBranch hlevel hbefore) entry hs).imp_right ?_
        exact And.imp_left fun hs => standsIn_iff.mpr (Or.inr ⟨before, hbefore, hs⟩)
  exact ensures_descend hlevels query


/-! ## One level -/

/-- Merging ids into a query touches the object id only. -/
theorem ObjectIds.mem_withOperator {entry : String × Json} {key : String} {ids : List String}
    (h : entry ∈ withOperator query key ids) : entry.1 = objectIdField ∨ entry ∈ query :=
  (Dict.mem_insert h).imp_left fun heq => congrArg Prod.fst heq

namespace JoinTables

variable {tables : JoinTables}

/-- On one level, `$relatedTo` gives way to the object id. -/
theorem settlesOwn_resolveOwnRelatedTo :
    SettlesOwn (fun key => key = "$relatedTo") tables.resolveOwnRelatedTo := by
  intro level s
  have herase : ∀ entry ∈ level.erase "$relatedTo",
      entry ∈ level ∧ decide (entry.1 = "$relatedTo") = false := fun entry he =>
    (Dict.mem_erase.mp he).imp_right decide_eq_false
  unfold resolveOwnRelatedTo
  split
  next hnone =>
    rw [Dict.erase_of_get?_eq_none hnone] at herase
    exact ensures_pure fun entry he => Or.inr (herase entry he)
  next =>
    refine ensures_bind (sends_ofResult _ s) ?_
    intro owner s₁ _ _
    refine ensures_bind (sends_relatedIds _ _ _ s₁) fun ids _ _ _ => ensures_pure ?_
    intro entry he
    exact (ObjectIds.mem_withOperator he).imp_right (herase entry)

/-- What is left of a level once some of its fields gave way to the object id. -/
def LeavesOthers (level : Object) (gone : List String) (after : Object) : Prop :=
  ∀ entry ∈ after, entry.1 = objectIdField ∨ entry ∈ level ∧ entry.1 ∉ gone

/-- A relation field of a level gives way to the object id. -/
theorem ensures_resolveField (className field : String) (level : Object) (s : Session) :
    Ensures IsLookup s (tables.resolveField className level field) fun after _ =>
      LeavesOthers level [field] after := by
  have herase : ∀ entry ∈ level.erase field, entry ∈ level ∧ entry.1 ∉ [field] := fun entry he =>
    (Dict.mem_erase.mp he).imp_right fun hne hmem => hne (List.mem_singleton.mp hmem)
  unfold resolveField
  split
  next hnone =>
    rw [Dict.erase_of_get?_eq_none hnone] at herase
    exact ensures_pure fun entry he => Or.inr (herase entry he)
  next constraint _ =>
    -- each filter only changes the constraint on the object id
    suffices hfilters : ∀ (filters : List RelationFilter) (query : Object) (s : Session),
        LeavesOthers level [field] query →
        Ensures IsLookup s (filters.foldlM (tables.applyFilter className field) query)
          fun after _ => LeavesOthers level [field] after from
      hfilters _ _ s fun entry he => Or.inr (herase entry he)
    intro filters
    induction filters with
    | nil => exact fun query s h => ensures_pure h
    | cons filter rest ih =>
      intro query s h
      rw [List.foldlM_cons]
      have hfilter : Ensures IsLookup s (tables.applyFilter className field query filter)
          fun after _ => LeavesOthers level [field] after := by
        refine ensures_bind (sends_owningIds _ _ _ s) fun owners _ _ _ => ensures_pure ?_
        intro entry he
        split at he
        · exact (ObjectIds.mem_withOperator he).elim Or.inl (h entry)
        · exact (ObjectIds.mem_withOperator he).elim Or.inl (h entry)
      exact ensures_bind hfilter fun next s₁ _ hnext => ih next s₁ hnext

/-- On one level, all relation fields give way to the object id. -/
theorem settlesOwn_resolveOwnFields (className : String) (schema : Schema) :
    SettlesOwn (isRelationField schema) (tables.resolveOwnFields className schema) := by
  -- by induction on the fields to come: what a later field leaves is left of what the earlier ones
  -- did
  have hfields : ∀ (fields : List String) (level : Object) (s : Session),
      Ensures IsLookup s (fields.foldlM (tables.resolveField className) level) fun after _ =>
        LeavesOthers level fields after := by
    intro fields
    induction fields with
    | nil => exact fun level s => ensures_pure fun entry he => Or.inr ⟨he, List.not_mem_nil⟩
    | cons field rest ih =>
      intro level s
      rw [List.foldlM_cons]
      refine ensures_bind (ensures_resolveField className field level s) ?_
      intro next s₁ _ hnext
      refine (ih next s₁).mono ?_
      intro after _ _ hafter entry he
      rcases hafter entry he with hid | ⟨hmem, hrest⟩
      · exact Or.inl hid
      · refine (hnext entry hmem).imp_right fun ⟨hlevel, hfield⟩ => ⟨hlevel, ?_⟩
        intro h
        rcases List.mem_cons.mp h with rfl | h
        · exact hfield List.mem_cons_self
        · exact hrest h
  intro level s
  refine (hfields _ level s).mono ?_
  intro after _ _ hafter entry he
  refine (hafter entry he).imp_right fun ⟨hmem, hgone⟩ => ⟨hmem, ?_⟩
  rw [← Bool.not_eq_true]
  exact fun hrelation => hgone (List.mem_filter.mpr ⟨List.mem_map_of_mem hmem, hrelation⟩)

/-- Whether a key is one that resolving relations settles on each level. -/
def isResolved (schema : Schema) (key : String) : Bool :=
  key = "$relatedTo" || isRelationField schema key

/-- A resolved query asks about the object id and what is left unresolved. -/
theorem ensures_resolve_asksOnly (className : String) (schema : Schema) (hid : P objectIdField)
    (hquery : query.Canonical) (hasked : ∀ field ∈ unresolved (isResolved schema) query, P field.1)
    (s : Session) :
    Ensures IsLookup s
      (do tables.resolveFields className schema (← tables.resolveRelatedTo query))
      fun resolved _ => AsksOnly P resolved := by
  have hcanonical : Ensures IsLookup s (tables.resolveRelatedTo query) fun related _ =>
      related.Canonical :=
    keepsCanonical_descend sends_resolveOwnRelatedTo keepsCanonical_resolveOwnRelatedTo
      query s hquery
  have hrelated : Ensures IsLookup s (tables.resolveRelatedTo query) _ :=
    ensures_descend_settles settlesOwn_resolveOwnRelatedTo query s
  refine ensures_bind (hcanonical.and hrelated) ?_
  intro related s₁ _ h
  obtain ⟨hcanonical, hrelated⟩ := h
  refine (ensures_descend_settles (settlesOwn_resolveOwnFields className schema) related s₁).mono
    fun resolved _ _ hresolved => asksOnly_of_standsIn resolved ?_
  intro entry hs
  have hobjectId : entry.1 = objectIdField → AsksOnly P [entry] := by
    intro heq
    have hkey : Combinator.ofKey? entry.1 = none := by rw [heq]; rfl
    rw [← heq] at hid
    exact (Compiler.asksOnly_field hkey).mpr hid
  -- what stands in the resolved query stood in the related one, and that in the query itself
  rcases hresolved hcanonical entry hs with heq | ⟨hs, hfield⟩
  · exact hobjectId heq
  rcases hrelated hquery entry hs with heq | ⟨hs, hkey⟩
  · exact hobjectId heq
  · have hunsettled : isResolved schema entry.1 = false := by
      rw [isResolved, hkey, hfield]
      rfl
    exact forall_unresolved_iff.mp hasked entry hs hunsettled

end JoinTables

end ObjectStore
