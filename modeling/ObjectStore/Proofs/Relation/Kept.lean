import ObjectStore.Proofs.Access.Levels
import ObjectStore.Proofs.Relation.Unresolved

/-!
# What resolving relations keeps

Resolving relations settles some keys on the levels of a query and is not concerned with any other.
So a key that is not settled is still there afterwards, unless it stands below one that is
(`Query.Keeps`). One level keeps all entries but the object id and those that it settles
(`keepsOwn_resolveOwnRelatedTo`, `keepsOwn_resolveOwnFields`), and a descent keeps what is kept on
every level (`ensures_descend_keeps`).
-/

namespace ObjectStore

open Query Statement Work

variable {P : String → Prop} {settled : String → Bool} {query level fields : Object}

namespace Query

/-- A key with a property stands on some level of a query, and neither it nor a combinator above it
is settled. A descent does not settle anything below `$nor`, which it never meets. -/
inductive Keeps (P : String → Prop) : (String → Bool) → Object → Prop
  | here {settled : String → Bool} {query : Object} {entry : String × Json} (hentry : entry ∈ query)
      (hkept : settled entry.1 = false) (h : P entry.1) : Keeps P settled query
  | inside {settled : String → Bool} {query fields : Object} {key : String} {items : List Json}
      (hkey : (Combinator.ofKey? key).isSome = true) (hkept : settled key = false)
      (hentry : (key, .arr items) ∈ query) (hfields : .obj fields ∈ items)
      (h : Keeps P (if isDescended key then settled else fun _ => false) fields) :
      Keeps P settled query

/-- What is kept stands on some level. -/
theorem Keeps.exists_level (h : Keeps P settled query) :
    ∃ level, IsLevelOf level query ∧ ∃ entry ∈ level, P entry.1 := by
  induction h with
  | here hentry _ h => exact ⟨_, .self _, _, hentry, h⟩
  | inside hkey _ hentry hfields _ ih =>
    obtain ⟨level, hlevel, hmem⟩ := ih
    exact ⟨level, .inside ⟨_, _, hkey, hentry, hfields⟩ hlevel, hmem⟩

/-- A query that keeps a key with a property has a key with it. -/
theorem Keeps.not_allKeys (h : Keeps P settled query) : ¬ AllKeys (fun key => ¬ P key) query := by
  intro hall
  obtain ⟨level, hlevel, entry, hentry, hP⟩ := h.exists_level
  exact hall level hlevel entry hentry hP

/-- A branch that changes are carried to comes out with what became of it. -/
theorem ClauseTo.exists_after {R : Object → Object → Prop} {items : List Json}
    {after : Option (List Json)} (h : ClauseTo R (some (.arr items)) after)
    (hfields : .obj fields ∈ items) :
    ∃ items' fields', after = some items' ∧ .obj fields' ∈ items' ∧ R fields fields' := by
  cases h with
  | kept hnone => cases hnone
  | @changed _ items' hitems =>
    obtain ⟨branch, hbranch, hto⟩ := Result.exists_right_of_mem hitems hfields
    cases hto with
    | changed hR => exact ⟨items', _, rfl, hbranch, hR⟩
    | kept hnone => cases hnone

/-- A level has all its keys when the list under one of them was changed. -/
theorem exists_mem_putList {key other : String} {value : Json} (items : Option (List Json))
    (h : (other, value) ∈ level) : ∃ value', (other, value') ∈ putList level key items := by
  cases items with
  | none => exact ⟨value, h⟩
  | some list =>
    by_cases hkey : other = key
    · subst hkey
      exact ⟨_, Dict.mem_insert_self ..⟩
    · exact ⟨value, Dict.mem_insert_of_ne h hkey⟩

/-- A level has all its keys when its branches were changed. -/
theorem exists_mem_withBranches {key : String} {value : Json} (ors ands : Option (List Json))
    (h : (key, value) ∈ level) : ∃ value', (key, value') ∈ withBranches level ors ands := by
  obtain ⟨value', hvalue'⟩ : ∃ value', (key, value') ∈ putList level "$or" ors :=
    exists_mem_putList ors h
  exact exists_mem_putList ands hvalue'

/-- A branch of a level whose branches were changed came out with what became of it. -/
theorem exists_after_of_isBranch {R : Object → Object → Prop} {ors ands : Option (List Json)}
    {key : String} {items : List Json} (hlevel : level.Sorted)
    (hors : ClauseTo R (level.get? "$or") ors) (hands : ClauseTo R (level.get? "$and") ands)
    (hkey : isDescended key = true) (hentry : (key, .arr items) ∈ level)
    (hfields : .obj fields ∈ items) :
    ∃ items' fields', (key, .arr items') ∈ withBranches level ors ands ∧ .obj fields' ∈ items'
      ∧ R fields fields' := by
  have hget := hlevel.get?_eq_some_iff.mpr hentry
  rcases isDescended_iff.mp hkey with rfl | rfl
  · rw [hget] at hors
    obtain ⟨items', fields', rfl, hmem, hR⟩ := hors.exists_after hfields
    have hor : ("$or", .arr items') ∈ putList level "$or" (some items') := Dict.mem_insert_self ..
    have hne : "$or" ≠ "$and" := by decide
    refine ⟨items', fields', ?_, hmem, hR⟩
    cases ands with
    | none => exact hor
    | some list => exact Dict.mem_insert_of_ne hor hne
  · rw [hget] at hands
    obtain ⟨items', fields', rfl, hmem, hR⟩ := hands.exists_after hfields
    exact ⟨items', fields', Dict.mem_insert_self .., hmem, hR⟩

end Query

/-! ## All levels -/

/-- A change of a level keeps what stands under keys that it does not settle, the object id apart.
-/
def KeepsOwn (settled : String → Bool) (own : Object → Work Object) : Prop :=
  ∀ level s, Ensures IsLookup s (own level) fun after _ =>
    ∀ entry ∈ level, entry.1 ≠ objectIdField → settled entry.1 = false → entry ∈ after

/-- A change that settles some keys keeps what stands under all others. -/
theorem KeepsOwn.mono {own : Object → Work Object} {more : String → Bool} (h : KeepsOwn settled own)
    (hmore : ∀ key, more key = false → settled key = false) : KeepsOwn more own := by
  intro level s
  refine (h level s).mono ?_
  intro after _ _ hafter entry hentry hid hkey
  exact hafter entry hentry hid (hmore entry.1 hkey)

/-- What is kept on every level is kept in the query. -/
theorem ensures_descend_keeps {own : Object → Work Object} (hown : KeepsOwn settled own)
    (hid : ¬ P objectIdField) (query : Object) (s : Session) :
    Ensures IsLookup s (descend own query) fun after _ =>
      query.Canonical → Keeps P settled query → Keeps P settled after := by
  have hlevels : IsLevelwise IsLookup s
      (fun query after _ => query.Canonical → Keeps P settled query → Keeps P settled after)
        own := by
    constructor
    · intro query after s s' _ h
      exact h
    · intro level ors ands s _ hors hands
      refine (hown _ s).mono ?_
      intro after s' _ hafter hlevel hkeeps
      cases hkeeps with
      | here hentry hkept hP =>
        obtain ⟨value', hvalue'⟩ := exists_mem_withBranches ors ands hentry
        have hkey : _ ≠ objectIdField := fun heq => hid (heq ▸ hP)
        exact .here (hafter _ hvalue' hkey hkept) hkept hP
      | @inside _ _ fields key items hkey hkept hentry hfields hinner =>
        have hne : key ≠ objectIdField := by
          intro heq
          rw [heq] at hkey
          cases hkey
        cases hdescended : isDescended key with
        | false =>
          -- what stands below `$nor` is not looked at
          have hget := hlevel.sorted.get?_eq_some_iff.mpr hentry
          rw [← get?_withBranches_of_not_isDescended hdescended] at hget
          have hmem := hafter _ (Dict.mem_of_get? hget) hne hkept
          exact .inside hkey hkept hmem hfields hinner
        | true =>
          have hbranch : IsBranch fields level := ⟨_, hentry, hdescended, items, rfl, hfields⟩
          obtain ⟨items', fields', hmem, hfields', hR⟩ :=
            exists_after_of_isBranch hlevel.sorted hors
            hands hdescended hentry hfields
          refine .inside hkey hkept (hafter _ hmem hne hkept) hfields' ?_
          rw [if_pos hdescended] at hinner ⊢
          exact hR (canonical_of_isBranch hlevel hbranch) hinner
  exact ensures_descend hlevels query


/-! ## One level -/

/-- An operator on the object id leaves the other entries as they are. -/
theorem ObjectIds.mem_withOperator_of_ne {entry : String × Json} {key : String} {ids : List String}
    (h : entry ∈ query) (hid : entry.1 ≠ objectIdField) : entry ∈ withOperator query key ids :=
  Dict.mem_insert_of_ne h hid

namespace JoinTables

variable {tables : JoinTables}

/-- Resolving `$relatedTo` on a level keeps all entries but this one and the object id. -/
theorem keepsOwn_resolveOwnRelatedTo :
    KeepsOwn (fun key => key = "$relatedTo") tables.resolveOwnRelatedTo := by
  intro level s
  unfold resolveOwnRelatedTo
  split
  next => exact ensures_pure fun entry hentry _ _ => hentry
  next =>
    refine ensures_bind (sends_ofResult _ s) ?_
    intro owner s₁ _ _
    refine ensures_bind (sends_relatedIds _ _ _ s₁) fun ids _ _ _ => ensures_pure ?_
    intro entry hentry hid hkey
    have hleft := Dict.mem_erase.mpr ⟨hentry, of_decide_eq_false hkey⟩
    exact ObjectIds.mem_withOperator_of_ne hleft hid

/-- All that stands in a query besides the object id and some fields stands in what became of it. -/
def KeepsOthers (level : Object) (gone : List String) (after : Object) : Prop :=
  ∀ entry ∈ level, entry.1 ≠ objectIdField → entry.1 ∉ gone → entry ∈ after

/-- A filter on a relation changes the object id only. -/
theorem ensures_applyFilter_keeps (className field : String) (filter : RelationFilter)
    (before : Object) (s : Session) :
    Ensures IsLookup s (tables.applyFilter className field before filter) fun after _ =>
      KeepsOthers before [] after := by
  refine ensures_bind (sends_owningIds _ _ _ s) fun owners _ _ _ => ensures_pure ?_
  intro entry hentry hid _
  split
  · exact ObjectIds.mem_withOperator_of_ne hentry hid
  · exact ObjectIds.mem_withOperator_of_ne hentry hid

/-- Resolving a relation field takes this field away, and keeps all others but the object id. -/
theorem ensures_resolveField_keeps (className field : String) (level : Object) (s : Session) :
    Ensures IsLookup s (tables.resolveField className level field) fun after _ =>
      KeepsOthers level [field] after := by
  unfold resolveField
  split
  next => exact ensures_pure fun entry hentry _ _ => hentry
  next constraint _ =>
    -- the filters of the field are applied one after another to the level without it
    suffices hfilters : ∀ (filters : List RelationFilter) (before : Object) (s : Session),
        KeepsOthers level [field] before →
        Ensures IsLookup s (filters.foldlM (tables.applyFilter className field) before)
          fun after _ => KeepsOthers level [field] after from
      hfilters _ _ s fun entry hentry _ hfield =>
        Dict.mem_erase.mpr ⟨hentry, fun heq => hfield (List.mem_singleton.mpr heq)⟩
    intro filters
    induction filters with
    | nil => exact fun before s h => ensures_pure h
    | cons filter rest ih =>
      intro before s h
      rw [List.foldlM_cons]
      refine ensures_bind (ensures_applyFilter_keeps className field filter before s)
        fun next s₁ _ hnext => ih next s₁ ?_
      intro entry hentry hid hfield
      exact hnext entry (h entry hentry hid hfield) hid List.not_mem_nil

/-- Resolving the relation fields of a level keeps all entries but these and the object id. -/
theorem keepsOwn_resolveOwnFields (className : String) (schema : Schema) :
    KeepsOwn (isRelationField schema) (tables.resolveOwnFields className schema) := by
  have hfields : ∀ (fields : List String) (level : Object) (s : Session),
      Ensures IsLookup s (fields.foldlM (tables.resolveField className) level) fun after _ =>
        KeepsOthers level fields after := by
    intro fields
    induction fields with
    | nil => exact fun level s => ensures_pure fun entry hentry _ _ => hentry
    | cons field rest ih =>
      intro level s
      rw [List.foldlM_cons]
      refine ensures_bind (ensures_resolveField_keeps className field level s) ?_
      intro next s₁ _ hnext
      refine (ih next s₁).mono ?_
      intro after _ _ hafter entry hentry hid hgone
      rw [List.mem_cons, not_or] at hgone
      have hnext := hnext entry hentry hid fun h => hgone.1 (List.mem_singleton.mp h)
      exact hafter entry hnext hid hgone.2
  intro level s
  refine (hfields _ level s).mono ?_
  intro after _ _ hafter entry hentry hid hkept
  refine hafter entry hentry hid ?_
  intro hgone
  rw [(List.mem_filter.mp hgone).2] at hkept
  cases hkept

/-- A resolved query has what the query keeps. -/
theorem ensures_resolve_keeps (className : String) (schema : Schema) (hid : ¬ P objectIdField)
    (hquery : query.Canonical) (hkeeps : Keeps P (isResolved schema) query) (s : Session) :
    Ensures IsLookup s
      (do tables.resolveFields className schema (← tables.resolveRelatedTo query))
      fun resolved _ => Keeps P (isResolved schema) resolved := by
  have hunresolved : ∀ key, isResolved schema key = false →
      decide (key = "$relatedTo") = false ∧ isRelationField schema key = false := by
    intro key hkey
    exact Bool.or_eq_false_iff.mp hkey
  have hcanonical : Ensures IsLookup s (tables.resolveRelatedTo query) fun related _ =>
      related.Canonical :=
    keepsCanonical_descend sends_resolveOwnRelatedTo keepsCanonical_resolveOwnRelatedTo
      query s hquery
  have hrelated : Ensures IsLookup s (tables.resolveRelatedTo query) _ :=
    ensures_descend_keeps
      (keepsOwn_resolveOwnRelatedTo.mono fun key hkey => (hunresolved key hkey).1) hid query s
  refine ensures_bind (hcanonical.and hrelated) ?_
  intro related s₁ _ h
  obtain ⟨hcanonical, hrelated⟩ := h
  have hfields : Ensures IsLookup s₁ (tables.resolveFields className schema related) _ :=
    ensures_descend_keeps ((keepsOwn_resolveOwnFields className schema).mono
      fun key hkey => (hunresolved key hkey).2) hid related s₁
  exact hfields.mono fun resolved _ _ hresolved => hresolved hcanonical (hrelated hquery hkeeps)

end JoinTables

end ObjectStore
