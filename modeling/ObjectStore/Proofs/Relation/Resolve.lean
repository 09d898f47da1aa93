import ObjectStore.Proofs.Classes.Bookkeeping
import ObjectStore.Proofs.Json.Canonical
import ObjectStore.Proofs.Query.Descend
import ObjectStore.Proofs.Result
import ObjectStore.Relation.Resolve

/-!
# Resolving relations keeps queries canonical

What relations ask for gives way to constraints on the object id, at every depth of a query. Each
change of one level stores and removes members only, so a canonical query stays canonical, by
induction on its branches; and all that is sent on the way are lookups of edges.
-/

namespace ObjectStore

open Statement Work

/-! ## Constraints on object ids -/

namespace ObjectIds

variable {query : Object}

/-- The operators on the id of a canonical query are canonical. -/
theorem canonical_operators (h : query.Canonical) : (operators query).Canonical := by
  unfold operators
  split
  next id _ => exact ⟨Dict.sorted_singleton _, List.forall_mem_singleton.mpr (.str id)⟩
  next fields hget => exact Object.canonical_iff.mpr (h.get? hget)
  next => exact Object.canonical_nil

/-- A canonical query stays canonical with ids merged into it. -/
theorem canonical_withOperator (h : query.Canonical) (key : String) (ids : List String) :
    (withOperator query key ids).Canonical :=
  h.insert _ (Object.canonical_iff.mp
    ((canonical_operators h).insert key (Json.canonical_ofStrings ids)))

end ObjectIds

/-! ## What is sent -/

namespace JoinTables

open Query (IsClosed)

variable {tables : JoinTables}

/-- That work only looks up edges, whatever it gives back. -/
theorem isClosed_sends : IsClosed fun α (w : Work α) => Sends IsLookup w :=
  ⟨fun a => sends_pure a, fun hw hf => sends_bind hw hf⟩

/-- Resolving a relation field only looks up edges. -/
theorem sends_resolveField (className : String) (query : Object) (field : String) :
    Sends IsLookup (tables.resolveField className query field) := by
  unfold resolveField
  split
  · exact sends_pure _
  · refine isClosed_sends.foldlM ?_ _ _
    intro query filter
    exact sends_bind (sends_owningIds _ _ _) fun _ => sends_pure _

/-- Resolving the relation fields of a level only looks up edges. -/
theorem sends_resolveOwnFields (className : String) (schema : Schema) (query : Object) :
    Sends IsLookup (tables.resolveOwnFields className schema query) :=
  isClosed_sends.foldlM (sends_resolveField className) _ _

/-- Resolving the `$relatedTo` of a level only looks up edges. -/
theorem sends_resolveOwnRelatedTo (query : Object) :
    Sends IsLookup (tables.resolveOwnRelatedTo query) := by
  unfold resolveOwnRelatedTo
  split
  · exact sends_pure _
  · exact sends_bind (sends_ofResult _) fun _ => sends_bind (sends_relatedIds _ _ _)
      fun _ => sends_pure _

/-- Resolving relations only looks up edges. -/
theorem sends_resolve (className : String) (schema : Schema) (query : Object) :
    Sends IsLookup
      (do tables.resolveFields className schema (← tables.resolveRelatedTo query)) := by
  have hrelated : Sends IsLookup (tables.resolveRelatedTo query) :=
    isClosed_sends.descend sends_resolveOwnRelatedTo query
  refine sends_bind hrelated ?_
  intro related
  exact isClosed_sends.descend (sends_resolveOwnFields className schema) related

end JoinTables

/-! ## Every branch -/

namespace Query

variable {own : Object → Work Object}

/-- Work on a query only looks up edges and keeps the query canonical. -/
def KeepsCanonical (own : Object → Work Object) : Prop :=
  ∀ query s, query.Canonical →
    Ensures IsLookup s (own query) fun resolved _ => resolved.Canonical

/-- A canonical query stays canonical with canonical branches. -/
theorem canonical_putList {fields : Object} {items : Option (List Json)} (key : String)
    (h : fields.Canonical) (hitems : ∀ list, items = some list → ∀ item ∈ list, item.Canonical) :
    (putList fields key items).Canonical := by
  cases items with
  | none => exact h
  | some list => exact h.insert key (.arr (hitems list rfl))

/-- Branches that came from those of a canonical query are canonical. -/
theorem ClauseTo.canonical {query : Object} {key : String} {after : Option (List Json)}
    (h : ClauseTo (fun q q' => q.Canonical → q'.Canonical) (Dict.get? query key) after)
    (hq : query.Canonical) (list : List Json) (hafter : after = some list) :
    ∀ item ∈ list, item.Canonical := by
  generalize hget : Dict.get? query key = value at h
  cases h with
  | kept => cases hafter
  | changed hbranches =>
    obtain rfl := Option.some.inj hafter
    have hbefore := Json.canonical_arr.mp (hq.get? hget)
    intro item hitem
    obtain ⟨branch, hbranch, hto⟩ := Result.exists_left_of_mem hbranches hitem
    cases hto with
    | changed hfields =>
      exact Object.canonical_iff.mp (hfields (Object.canonical_iff.mpr (hbefore _ hbranch)))
    | kept => exact hbefore _ hbranch

/-- A change that keeps one level of a query canonical keeps all of it canonical. -/
theorem keepsCanonical_descend (hsends : ∀ query, Sends IsLookup (own query))
    (hown : KeepsCanonical own) : KeepsCanonical (descend own) := by
  intro query s h
  have hlevels : IsLevelwise IsLookup s (fun q q' _ => q.Canonical → q'.Canonical) own := by
    constructor
    · intro q q' s s' _ hcanonical
      exact hcanonical
    · intro level ors ands s _ hors hands
      by_cases hlevel : Object.Canonical level
      · refine (hown _ s ?_).mono fun _ _ _ hafter _ => hafter
        exact canonical_putList _ (canonical_putList _ hlevel (hors.canonical hlevel))
          (hands.canonical hlevel)
      · -- nothing is said of what comes out for a level that is not canonical
        exact (hsends _ s).mono fun _ _ _ _ hcanonical => absurd hcanonical hlevel
  exact (ensures_descend hlevels query).mono fun _ _ _ hafter => hafter h


end Query

/-! ## The two rewritings -/

namespace JoinTables

open Query (KeepsCanonical keepsCanonical_descend)

variable {tables : JoinTables}

/-- A loop keeps a query canonical if each step does. -/
theorem keepsCanonical_foldlM {α : Type} {step : Object → α → Work Object}
    (hstep : ∀ item, KeepsCanonical fun query => step query item) (items : List α) :
    KeepsCanonical fun query => items.foldlM step query := by
  induction items with
  | nil => exact fun query s h => ensures_pure h
  | cons item rest ih =>
    intro query s h
    simp only [List.foldlM_cons]
    exact ensures_bind (hstep item query s h) fun next s₁ _ hnext => ih next s₁ hnext

/-- Resolving a relation field keeps a query canonical. -/
theorem keepsCanonical_resolveField (className field : String) :
    KeepsCanonical fun query => tables.resolveField className query field := by
  intro query s h
  dsimp only [resolveField]
  split
  · exact ensures_pure h
  · -- the filters of the field are resolved one after another, once the field itself is gone
    refine keepsCanonical_foldlM ?_ _ _ s (h.erase field)
    intro filter query s hq
    refine ensures_bind (sends_owningIds _ _ _ s) fun owners _ _ _ => ensures_pure ?_
    split
    · exact ObjectIds.canonical_withOperator hq _ _
    · exact ObjectIds.canonical_withOperator hq _ _

/-- Resolving the relation fields of a level keeps it canonical. -/
theorem keepsCanonical_resolveOwnFields (className : String) (schema : Schema) :
    KeepsCanonical (tables.resolveOwnFields className schema) :=
  fun query s h => keepsCanonical_foldlM (keepsCanonical_resolveField className) _ query s h

/-- Resolving the `$relatedTo` of a level keeps it canonical. -/
theorem keepsCanonical_resolveOwnRelatedTo : KeepsCanonical tables.resolveOwnRelatedTo := by
  intro query s h
  unfold resolveOwnRelatedTo
  split
  · exact ensures_pure h
  · refine ensures_bind (sends_ofResult _ s) ?_
    intro owner s₁ _ _
    refine ensures_bind (sends_relatedIds _ _ _ s₁) fun ids _ _ _ => ensures_pure ?_
    exact ObjectIds.canonical_withOperator (h.erase _) _ _

/-- Resolving relations only looks up edges, and keeps a canonical query canonical. -/
theorem ensures_resolve (className : String) (schema : Schema) (query : Object) (s : Session) :
    Ensures IsLookup s
      (do tables.resolveFields className schema (← tables.resolveRelatedTo query))
      fun resolved _ => query.Canonical → resolved.Canonical := by
  by_cases h : query.Canonical
  · have hrelatedTo : KeepsCanonical tables.resolveRelatedTo :=
      keepsCanonical_descend sends_resolveOwnRelatedTo keepsCanonical_resolveOwnRelatedTo
    have hfields : KeepsCanonical (tables.resolveFields className schema) :=
      keepsCanonical_descend (sends_resolveOwnFields className schema)
        (keepsCanonical_resolveOwnFields className schema)
    refine ensures_bind (hrelatedTo query s h) ?_
    intro related s₁ _ hrelated
    exact (hfields related s₁ hrelated).mono fun _ _ _ hresolved _ => hresolved
  · exact (sends_resolve className schema query s).mono fun _ _ _ _ hquery => absurd hquery h

end JoinTables

end ObjectStore
