import ObjectStore.Proofs.Relation.Lookup
import ObjectStore.Proofs.Relation.Narrowing
import ObjectStore.Proofs.Relation.Related
import ObjectStore.Proofs.Relation.Unresolved

/-!
# Resolving relations is a join

A constraint on a relation field is about edges, and what it is resolved to is about ids. Rows match
the same queries before and after, if the lookups on the way are answered by the edges
(`resolveFields_matches`). This goes from the inside out: one filter narrows a level by one conjunct
(`finds_applyFilter`), all filters of a constraint together say what the constraint says
(`finds_resolveField`), so a level without its constraints on relations means what it meant
(`finds_resolveOwnFields`), and then a query does, by induction on its branches.
-/

namespace ObjectStore

open Query Session Statement Work
open JoinTables (isRelationField)

/-- What it takes a row to meet an entry of a query on its class. -/
def Reading.meets (r : Reading) (edges : Edges) (schema : Schema) (key : String) (value : Json) :
    Prop :=
  if isRelationField schema key then Related (edges ⟨schema.className, key⟩ r.id) value
  else if key = objectIdField then r.MeetsId value
  else r.meetsField key value

/-- Whether an entry is one that relations can be joined with: constraints on relations can be read,
and the id is compared with ids. -/
def isJoinableEntry (schema : Schema) (entry : String × Json) : Bool :=
  if isRelationField schema entry.1 then isRelationConstraint entry.2
  else entry.1 != objectIdField || ObjectIds.isIdConstraint entry.2

/-- Relations can be joined with all entries of a level. -/
structure IsJoinable (schema : Schema) (level : Object) : Prop where
  canonical : level.Canonical
  entries : ∀ entry ∈ level, isJoinableEntry schema entry = true

/-- Relations can be joined with a level, which a row matches if it has some property. -/
structure Means (edges : Edges) (schema : Schema) (level : Object) (p : Reading → Prop) : Prop where
  joinable : IsJoinable schema level
  matches_iff : ∀ r : Reading, Matches (r.meets edges schema) level ↔ p r

variable {edges : Edges} {schema : Schema} {level : Object} {r : Reading} {key field : String}
  {value constraint : Json}

/-! ## Entries of a level -/

section Entries

variable (hid : isRelationField schema objectIdField = false)

include hid

/-- What a level asks of the id is a comparison with ids. -/
theorem IsJoinable.comparesId (h : IsJoinable schema level) : ObjectIds.ComparesId level := by
  intro value hget
  have hentry := h.entries _ (Dict.mem_of_get? hget)
  simpa [isJoinableEntry, hid] using hentry

/-- Relations can be joined with a level whose id was narrowed. -/
theorem IsJoinable.withOperator (h : IsJoinable schema level) (hkey : key ∈ ["$in", "$nin"])
    (ids : List String) : IsJoinable schema (ObjectIds.withOperator level key ids) := by
  refine ⟨ObjectIds.canonical_withOperator h.canonical key ids, ?_⟩
  intro entry he
  have hcompares := ObjectIds.comparesId_withOperator (h.comparesId hid) hkey ids
  rcases Dict.mem_insert he with rfl | he
  · rw [isJoinableEntry, if_neg (by rw [hid]; decide), Bool.or_eq_true]
    exact Or.inr (hcompares _ (ObjectIds.get?_withOperator ..))
  · exact h.entries entry he

/-- A row matches a level if it meets what is asked of its id and matches all else. -/
theorem matches_iff_meetsIdOf (hlevel : level.Sorted) :
    Matches (r.meets edges schema) level ↔
      r.MeetsIdOf level ∧ Matches (r.meets edges schema) (level.erase objectIdField) := by
  unfold Reading.MeetsIdOf
  cases hget : level.get? objectIdField with
  | none => simp [Dict.erase_of_get?_eq_none hget]
  | some value =>
    rw [matches_erase hlevel hget, matches_field rfl, Reading.meets, if_neg (by rw [hid]; decide),
      if_pos rfl]
    simp

/-- What narrows the id narrows the level. -/
theorem matches_withOperator {ids : List String} {p : Prop} (h : IsJoinable schema level)
    (hids : r.MeetsIdOf (ObjectIds.withOperator level key ids) ↔ r.MeetsIdOf level ∧ p) :
    Matches (r.meets edges schema) (ObjectIds.withOperator level key ids) ↔
      Matches (r.meets edges schema) level ∧ p := by
  have hsorted := (ObjectIds.canonical_withOperator h.canonical key ids).sorted
  rw [matches_iff_meetsIdOf hid h.canonical.sorted, matches_iff_meetsIdOf hid hsorted, hids,
    ObjectIds.withOperator, Dict.erase_insert, and_right_comm]

end Entries

/-- Relations can be joined with a level without one of its entries. -/
theorem IsJoinable.erase (h : IsJoinable schema level) (key : String) :
    IsJoinable schema (level.erase key) :=
  ⟨h.canonical.erase key, fun entry he => h.entries entry (Dict.mem_erase.mp he).1⟩

namespace JoinTables

variable {tables : JoinTables}

/-! ## One level -/

section Level

variable (hid : isRelationField schema objectIdField = false)
  (hnames : ∀ key, isRelationField schema key = true → isDescended key = false)
  (htables : ∀ key, isRelationField schema key = true → ⟨schema.className, key⟩ ∈ tables)

include hid in
/-- A filter narrows a level to the rows that pass it. -/
theorem finds_applyFilter (htable : ⟨schema.className, field⟩ ∈ tables) (level : Object)
    (filter : RelationFilter) :
    Finds edges (tables.applyFilter schema.className field level filter) fun after =>
      IsJoinable schema level → Means edges schema after fun r =>
        Matches (r.meets edges schema) level ∧
          filter.Holds (edges ⟨schema.className, field⟩ r.id) := by
  refine finds_bind (finds_owningIds _ _ _) (fun _ => sends_pure _) ?_
  intro owners howners
  refine finds_pure ?_
  intro hlevel
  have howner := howners htable
  unfold RelationFilter.Holds
  split
  · refine ⟨hlevel.withOperator hid (by decide) _, ?_⟩
    intro r
    have hmatches : Matches (r.meets edges schema) (ObjectIds.exclude owners level) ↔
        Matches (r.meets edges schema) level ∧ r.id ∉ owners :=
      matches_withOperator hid hlevel (ObjectIds.meetsIdOf_exclude (hlevel.comparesId hid) owners)
    rw [hmatches, howner, Edges.owners]
    simp only [not_exists, not_and]
  · refine ⟨hlevel.withOperator hid (by decide) _, ?_⟩
    intro r
    have hmatches : Matches (r.meets edges schema) (ObjectIds.allow owners level) ↔
        Matches (r.meets edges schema) level ∧ r.id ∈ owners :=
      matches_withOperator hid hlevel (ObjectIds.meetsIdOf_allow (hlevel.comparesId hid) owners)
    rw [hmatches, howner, Edges.owners]

include hid in
/-- Filters one after another narrow a level to the rows that pass all of them. -/
theorem finds_applyFilters (htable : ⟨schema.className, field⟩ ∈ tables)
    (filters : List RelationFilter) (level : Object) :
    Finds edges (filters.foldlM (tables.applyFilter schema.className field) level) fun after =>
      IsJoinable schema level → Means edges schema after fun r =>
        Matches (r.meets edges schema) level ∧
          ∀ filter ∈ filters, filter.Holds (edges ⟨schema.className, field⟩ r.id) := by
  induction filters generalizing level with
  | nil => exact finds_pure fun h => ⟨h, fun r => by simp⟩
  | cons filter rest ih =>
    rw [List.foldlM_cons]
    refine finds_bind (finds_applyFilter hid htable level filter) (fun next => (ih next).sends) ?_
    intro next hnext
    refine (ih next).mono ?_
    intro after hafter hlevel
    have hnext := hnext hlevel
    have hafter := hafter hnext.joinable
    refine ⟨hafter.joinable, ?_⟩
    intro r
    rw [hafter.matches_iff, hnext.matches_iff, List.forall_mem_cons, and_assoc]

include hid hnames htables in
/-- A level without its constraint on a relation field means what it meant. -/
theorem finds_resolveField (hfield : isRelationField schema field = true) (level : Object) :
    Finds edges (tables.resolveField schema.className level field) fun after =>
      IsJoinable schema level → Means edges schema after fun r =>
        Matches (r.meets edges schema) level := by
  unfold resolveField
  split
  next => exact finds_pure fun hlevel => ⟨hlevel, fun r => Iff.rfl⟩
  next constraint hget =>
    refine (finds_applyFilters hid (htables field hfield) _ _).mono ?_
    intro after hafter hlevel
    have hafter := hafter (hlevel.erase field)
    have hconstraint : isRelationConstraint constraint = true := by
      have hentry := hlevel.entries _ (Dict.mem_of_get? hget)
      rwa [isJoinableEntry, if_pos hfield] at hentry
    refine ⟨hafter.joinable, ?_⟩
    intro r
    rw [hafter.matches_iff, matches_erase hlevel.canonical.sorted hget,
      matches_field (hnames field hfield), Reading.meets, if_pos hfield,
      RelationFilter.forall_ofConstraint_iff hconstraint (hlevel.canonical.get? hget), and_comm]

include hid hnames htables in
/-- A level without its constraints on relation fields means what it meant. -/
theorem finds_resolveOwnFields (level : Object) :
    Finds edges (tables.resolveOwnFields schema.className schema level) fun after =>
      IsJoinable schema level → Means edges schema after fun r =>
        Matches (r.meets edges schema) level := by
  have hfields : ∀ (fields : List String) (level : Object),
      (∀ field ∈ fields, isRelationField schema field = true) →
      Finds edges (fields.foldlM (tables.resolveField schema.className) level) fun after =>
        IsJoinable schema level → Means edges schema after fun r =>
          Matches (r.meets edges schema) level := by
    intro fields
    induction fields with
    | nil => exact fun level _ => finds_pure fun hlevel => ⟨hlevel, fun r => Iff.rfl⟩
    | cons field rest ih =>
      intro level hrelations
      obtain ⟨hfield, hrest⟩ := List.forall_mem_cons.mp hrelations
      rw [List.foldlM_cons]
      refine finds_bind (finds_resolveField hid hnames htables hfield level)
        (fun next => (ih next hrest).sends) ?_
      intro next hnext
      refine (ih next hrest).mono ?_
      intro after hafter hlevel
      have hnext := hnext hlevel
      have hafter := hafter hnext.joinable
      exact ⟨hafter.joinable, fun r => (hafter.matches_iff r).trans (hnext.matches_iff r)⟩
  exact hfields _ level fun field hmem => (List.mem_filter.mp hmem).2

/-! ## All levels -/

/-- Relations can be joined with all levels of a query. -/
def AreJoinable (schema : Schema) (query : Object) : Prop :=
  ∀ level ∈ levels query, ∀ entry ∈ level, isJoinableEntry schema entry = true

/-- A query gives way to a canonical one that the same rows match. -/
structure SameMeaning (edges : Edges) (schema : Schema) (query after : Object) : Prop where
  canonical : after.Canonical
  matches_iff : ∀ r : Reading,
    Matches (r.meets edges schema) after ↔ Matches (r.meets edges schema) query

/-- Relations can be joined with all levels of a branch. -/
theorem AreJoinable.branch {query fields : Object} (h : AreJoinable schema query)
    (hfields : IsBranch fields query) : AreJoinable schema fields :=
  fun level hl => h level (List.mem_cons_of_mem _ (mem_levelsBelow.mpr ⟨fields, hfields, hl⟩))

include hnames in
/-- Relations can be joined with a level whose branches were changed to canonical ones. -/
theorem isJoinable_withBranches {ors ands : Option (List Json)} (hlevel : IsJoinable schema level)
    (hors : ClauseTo (SameMeaning edges schema) (level.get? "$or") ors)
    (hands : ClauseTo (SameMeaning edges schema) (level.get? "$and") ands) :
    IsJoinable schema (withBranches level ors ands) := by
  have hcanonical := hlevel.canonical
  have hors : ClauseTo (fun q q' => q.Canonical → q'.Canonical) (level.get? "$or") ors :=
    hors.mono fun _ _ h _ => h.canonical
  have hands : ClauseTo (fun q q' => q.Canonical → q'.Canonical) (level.get? "$and") ands :=
    hands.mono fun _ _ h _ => h.canonical
  have hafter : (withBranches level ors ands).Canonical :=
    canonical_putList _ (canonical_putList _ hcanonical (hors.canonical hcanonical))
      (hands.canonical hcanonical)
  refine ⟨hafter, ?_⟩
  intro entry he
  obtain ⟨key, value⟩ := entry
  cases hkey : isDescended key with
  | true =>
    have hfield : isRelationField schema key = false := by
      cases hfield : isRelationField schema key with
      | false => rfl
      | true => exact absurd (hnames key hfield) (by simp [hkey])
    have hne : key ≠ objectIdField := by
      rintro rfl
      cases hkey
    simp [isJoinableEntry, hfield, hne]
  | false =>
    have hget := hafter.sorted.get?_eq_some_iff.mpr he
    rw [get?_withBranches_of_not_isDescended hkey] at hget
    exact hlevel.entries _ (Dict.mem_of_get? hget)

include hid hnames htables in
/-- A query without its constraints on relation fields means what it meant. -/
theorem ensures_resolveFields (query : Object) (s : Session) :
    Ensures IsBookkeeping s (tables.resolveFields schema.className schema query)
      fun after s' => s.IsTrueTo edges s' → query.Canonical → AreJoinable schema query →
        SameMeaning edges schema query after := by
  have hlevels : IsLevelwise IsBookkeeping s (fun query after s' => s.IsTrueTo edges s' →
      query.Canonical → AreJoinable schema query → SameMeaning edges schema query after)
      (tables.resolveOwnFields schema.className schema) := by
    constructor
    · intro query after s₁ s₂ hs h htrue
      exact h (htrue.before hs)
    · intro level ors ands s₁ hs₁ hors hands
      have hown : Finds edges
          (tables.resolveOwnFields schema.className schema (withBranches level ors ands)) _ :=
        finds_resolveOwnFields hid hnames htables _
      refine (hown.ensures s₁).mono ?_
      intro after s₂ hs₂ hafter htrue hcanonical hjoinable
      -- the branches mean what they meant, so the level with them does, and resolving it keeps that
      have hors : ClauseTo (SameMeaning edges schema) (level.get? "$or") ors :=
        (hors.isBranch rfl).mono fun _ _ h => h.2 (htrue.before hs₂)
          (canonical_of_isBranch hcanonical h.1) (hjoinable.branch h.1)
      have hands : ClauseTo (SameMeaning edges schema) (level.get? "$and") ands :=
        (hands.isBranch rfl).mono fun _ _ h => h.2 (htrue.before hs₂)
          (canonical_of_isBranch hcanonical h.1) (hjoinable.branch h.1)
      have hlevel : IsJoinable schema level := ⟨hcanonical, hjoinable level List.mem_cons_self⟩
      have hafter := hafter (htrue.after hs₁) (isJoinable_withBranches hnames hlevel hors hands)
      refine ⟨hafter.joinable.canonical, fun r => (hafter.matches_iff r).trans ?_⟩
      exact matches_withBranches hcanonical.sorted (hors.mono fun _ _ h => h.matches_iff r)
        (hands.mono fun _ _ h => h.matches_iff r)
  exact ensures_descend hlevels query


end Level

/-! ## The join -/

/-- A relation field is one of the relation fields of its schema. -/
theorem mem_relationFields (h : isRelationField schema key = true) :
    key ∈ schema.relationFields := by
  obtain ⟨type, htype, hrelation⟩ := (Option.any_eq_true _ _).mp h
  exact List.mem_map_of_mem (List.mem_filter.mpr ⟨Dict.mem_of_get? htype, hrelation⟩)

/-- The join tables of all classes have those of each class. -/
theorem subset_ofSchemas {schemas : List Schema} (h : schema ∈ schemas) :
    schema.joinTables ⊆ ofSchemas schemas :=
  fun _ htable => List.mem_eraseDups.mpr (List.mem_flatMap.mpr ⟨schema, h, htable⟩)

/-- Resolving constraints on relations, where lookups are answered by the edges, succeeds with a
query that has no constraint on a relation left on any level and that the same rows match. -/
theorem resolveFields_matches (schema : Schema) (tables : JoinTables) (edges : Edges)
    (query : Object) (s : Session) (hid : schema.field? objectIdField = some .string)
    (hnames : ∀ field ∈ schema.relationFields, Text.startsWith field "$" = false)
    (htables : schema.joinTables ⊆ tables) (hquery : query.Canonical)
    (hjoinable : AreJoinable schema query)
    (htrue : s.IsTrueTo edges
      ((tables.resolveFields schema.className schema query).run s).2) :
    ∃ resolved, ((tables.resolveFields schema.className schema query).run s).1 = .ok resolved ∧
      (∀ level ∈ levels resolved, ∀ entry ∈ level, isRelationField schema entry.1 = false) ∧
      ∀ r : Reading,
        Matches (r.meets edges schema) resolved ↔ Matches (r.meets edges schema) query := by
  have hid : isRelationField schema objectIdField = false := by rw [isRelationField, hid]; rfl
  have hnames : ∀ key, isRelationField schema key = true → isDescended key = false := by
    intro key hkey
    have hname := hnames key (mem_relationFields hkey)
    rw [← Bool.not_eq_true, isDescended_iff]
    rintro (rfl | rfl) <;> cases hname
  have htables : ∀ key, isRelationField schema key = true →
      (⟨schema.className, key⟩ : JoinTable) ∈ tables := fun key hkey =>
    htables (List.mem_map_of_mem (mem_relationFields hkey))
  have hfinds : Finds edges (tables.resolveFields schema.className schema query) fun _ => True :=
    isClosed_finds.descend
      (fun level => (finds_resolveOwnFields hid hnames htables level).mono fun _ _ => trivial) query
  obtain ⟨resolved, hresolved, _⟩ := hfinds.result s htrue
  refine ⟨resolved, hresolved, ?_, ?_⟩
  · intro level hlevel entry he
    have hsettled := (ensures_descend_settles (settlesOwn_resolveOwnFields schema.className schema)
      query s).result resolved hresolved hquery entry
    cases hkey : isDescended entry.1 with
    | true =>
      rw [← Bool.not_eq_true]
      exact fun hfield => by rw [hnames _ hfield] at hkey; cases hkey
    | false =>
      rcases hsettled ⟨hkey, level, hlevel, he⟩ with heq | ⟨_, hfield⟩
      · rw [heq, hid]
      · exact hfield
  · exact ((ensures_resolveFields hid hnames htables query s).result resolved hresolved htrue
      hquery hjoinable).matches_iff

/-- Teams with members. -/
def team : Schema := (Schema.ofClass "Team").withField "members" (.relation "_User")

/-- Two teams, the second one with a member more. -/
def memberships : Edges :=
  fun _ team member => (team, member) ∈ [("a", "u"), ("b", "u"), ("b", "v")]

/-- Teams with the member `u` and without `v`, or the team `c`, all of them among three. -/
def teamsOfMember : Object :=
  [("$or", .arr
      [.obj [("members", .obj
        [("$in", .arr [Pointer.toJson ⟨"_User", "u"⟩]), ("$ne", .str "v")])],
      .obj [(objectIdField, .str "c")]]),
    (objectIdField, .obj [("$in", .ofStrings ["a", "b", "c"])])]

/-- A session in which the members of teams are looked up. -/
def lookups : Session where
  rowAnswers :=
    [.ok [[(owningColumn, .text (some "a"))], [(owningColumn, .text (some "b"))]],
      .ok [[(owningColumn, .text (some "b"))]]]
  changeAnswers := []
  now := ⟨0, 0⟩
  randomBytes := fun _ => Vector.replicate 10 0

theorem resolveFields_teamsOfMember :
    ∃ resolved,
      (((ofSchemas [team]).resolveFields "Team" team teamsOfMember).run lookups).1 = .ok resolved ∧
      (∀ level ∈ levels resolved, ∀ entry ∈ level, isRelationField team entry.1 = false) ∧
      ∀ r : Reading, Matches (r.meets memberships team) resolved ↔
        Matches (r.meets memberships team) teamsOfMember := by
  have hsingle : ∀ {key value}, Json.Canonical value → (Json.obj [(key, value)]).Canonical :=
    fun h => .obj (Dict.sorted_singleton _) (List.forall_mem_singleton.mpr h)
  have hpair : ∀ {key key' value value'}, key < key' → Json.Canonical value →
      Json.Canonical value' → (Json.obj [(key, value), (key', value')]).Canonical :=
    fun hkeys h h' => .obj (by simpa [Dict.Sorted] using hkeys)
      (List.forall_mem_cons.mpr ⟨h, List.forall_mem_singleton.mpr h'⟩)
  have hpointer : (Pointer.toJson ⟨"_User", "u"⟩).Canonical :=
    Json.canonical_ofEntries (by simp [Json.Canonical.str])
  have hquery : teamsOfMember.Canonical := by
    refine Object.canonical_iff.mpr (hpair (by decide) (.arr (List.forall_mem_cons.mpr ⟨?_,
      List.forall_mem_singleton.mpr (hsingle (.str "c"))⟩)) (hsingle (Json.canonical_ofStrings _)))
    exact hsingle (hpair (by decide) (.arr (List.forall_mem_singleton.mpr hpointer)) (.str "v"))
  have hjoinable : AreJoinable team teamsOfMember := by
    unfold AreJoinable
    decide
  have hjournal : (((ofSchemas [team]).resolveFields "Team" team teamsOfMember).run
      lookups).2.journal.drop 0 = [
        .sent (.relation (.owners ⟨"Team", "members"⟩ ["u"]))
          (.rows [[(owningColumn, .text (some "a"))], [(owningColumn, .text (some "b"))]]),
        .sent (.relation (.owners ⟨"Team", "members"⟩ ["v"]))
          (.rows [[(owningColumn, .text (some "b"))]])] := rfl
  have htrue : lookups.IsTrueTo memberships
      (((ofSchemas [team]).resolveFields "Team" team teamsOfMember).run lookups).2 := by
    intro event he
    rw [show lookups.journal.length = 0 from rfl, hjournal] at he
    rcases List.mem_pair.mp he with rfl | rfl
    · exact ⟨["a", "b"], rfl, fun id => by simp [Edges.owners, memberships]⟩
    · exact ⟨["b"], rfl, fun id => by simp [Edges.owners, memberships]⟩
  exact resolveFields_matches team (ofSchemas [team]) memberships teamsOfMember lookups rfl
    (by decide) (subset_ofSchemas List.mem_cons_self) hquery hjoinable htrue

end JoinTables

end ObjectStore
