import ObjectStore.Proofs.Access.Pointer
import ObjectStore.Proofs.Access.Restriction
import ObjectStore.Proofs.Relation.Resolve
import ObjectStore.Request.Prepare

/-!
# What a prepared query lets through

Preparing a query puts it through three rewritings: relations give way to object ids, pointer fields
become alternatives, and the permission column is constrained. `Admissible` is what must hold on a
row for all of them together, and `admissible_of_admits` shows that the restricted query admits no
other rows, on reads and on writes alike: both go through `restrictTo`.

One thing is not promised. A constraint of the client on the permission column is kept as a branch
of `$and`, and an `$and` that is no list is lost then. So a client that asks for one is not known to
get what it asked for, and a pointer field of that name not to be heeded.
-/

namespace ObjectStore

/-- The class of a name as a session knows it, or a new one. -/
def Session.schemaOf (s : Session) (className : String) : Schema :=
  (s.classes.get? className).getD (.ofClass className)

/-- The permissions of a class, as a session knows it, let a caller perform an operation; a master
is bound by none. -/
def Session.Permits (s : Session) (className : String) (caller : Caller) (op : Operation) : Prop :=
  ∀ groups, caller.groups? = some groups →
    Permissions.validate ((s.classes.get? className).bind (·.permissions)) className groups op
      = .ok ()

namespace Request

open Access Result Work Statement

variable {store : Store} {className : String} {schema : Schema} {op : Operation} {caller : Caller}
  {groups : List String} {query asked permitted restricted : Object} {c : Compiler}
  {hidden : Option (List String)} {s : Session}

/-- The permission column that an operation is restricted by. -/
def permissionColumn : Operation → String
  | .update | .delete => writeColumn
  | _ => readColumn

/-- The groups that a row must be open to; everyone's group counts for reading. -/
def permissionGroups (op : Operation) (groups : List String) : List String :=
  match op with
  | .update | .delete => groups
  | _ => publicGroup :: groups

theorem isPermission_permissionColumn (op : Operation) : IsPermission (permissionColumn op) := by
  cases op <;> simp [permissionColumn, IsPermission]

theorem permissionColumn_ne (op : Operation) {key : String}
    (hkey : (Combinator.ofKey? key).isSome = true) : permissionColumn op ≠ key := by
  rintro rfl
  cases op <;> cases hkey

theorem restrictTo_eq (op : Operation) (query : Object) (groups : List String) :
    restrictTo op query groups
      = restrict query (permissionColumn op) (oneOf (permissionGroups op groups)) := by
  cases op <;> rfl

/-- A caller that is no master takes part with everyone's group. -/
theorem publicGroup_mem (h : caller.groups? = some groups) : publicGroup ∈ groups := by
  cases caller with
  | master => cases h
  | anonymous => exact Option.some.inj h ▸ List.mem_cons_self
  | user id roles =>
    obtain rfl := Option.some.inj h
    exact List.mem_append_left _ List.mem_cons_self

/-- The groups that a row must be open to are groups of the caller. -/
theorem mem_of_mem_permissionGroups (hpublic : publicGroup ∈ groups) {group : String}
    (h : group ∈ permissionGroups op groups) : group ∈ groups := by
  unfold permissionGroups at h
  split at h
  · exact h
  · exact h
  · rcases List.mem_cons.mp h with rfl | h
    · exact hpublic
    · exact h

/-! ## The rows behind a restricted query -/

/-- A row that an operation may touch on behalf of some groups: it is open to one of them, it
answers what was asked, unless this is an `$and` of something else than a list, and where only
pointer fields grant the operation, one of them points at the caller. -/
structure Admissible (c : Compiler) (schema : Schema) (op : Operation) (groups : List String)
    (asked : Object) (row : StoredRow) : Prop where
  isOpen : row.IsOpenTo (permissionColumn op) groups
  answers : "$and" ∉ pointerFields schema op → TakesBranch asked → c.Admits row.truth asked
  pointed : "$and" ∉ pointerFields schema op →
    Permissions.allows schema.permissions groups op = false → pointerFields schema op ≠ [] →
      ∃ user, users groups = [user] ∧
        ∃ field ∈ pointerFields schema op, PointsAt c row.truth schema field user

theorem canonical_restrictTo (h : permitted.Canonical) :
    (restrictTo op permitted groups).Canonical := by
  rw [restrictTo_eq]
  exact canonical_restrict h (canonical_oneOf _)

/-- What the restriction to groups admits is open to one of the groups of the caller. -/
theorem isOpenTo_of_admitsEntry {ignoreCase : Bool} {now : Timestamp} {row : StoredRow}
    (hpublic : publicGroup ∈ groups)
    (h : (Compiler.ofSchema schema ignoreCase now).AdmitsEntry row.truth
      (permissionColumn op, oneOf (permissionGroups op groups))) :
    row.IsOpenTo (permissionColumn op) groups := by
  have hgroups : permissionGroups op groups ≠ [] := by
    cases op <;> simp only [permissionGroups] <;> first
      | exact List.ne_nil_of_mem hpublic
      | exact List.cons_ne_nil _ _
  exact (isOpenTo_of_admits (isPermission_permissionColumn op) hgroups h).mono
    fun group hg => mem_of_mem_permissionGroups hpublic hg

theorem get?_restrictTo (op : Operation) (query : Object) (groups : List String) :
    (restrictTo op query groups).get? (permissionColumn op)
      = some (oneOf (permissionGroups op groups)) := by
  rw [restrictTo_eq]
  exact get?_restrict query _ (permissionColumn_ne op rfl)

/-- A restricted query admits no rows but those that the operation may touch. -/
theorem admissible_of_admits {ignoreCase : Bool} {now : Timestamp} {row : StoredRow}
    (hq : asked.Canonical) (hpublic : publicGroup ∈ groups)
    (hp : restrictToPointers schema op asked groups = .ok (some permitted))
    (h : (Compiler.ofSchema schema ignoreCase now).Admits row.truth
      (restrictTo op permitted groups)) :
    Admissible (.ofSchema schema ignoreCase now) schema op groups asked row := by
  have hpermitted : AdmitsBesideAnd (.ofSchema schema ignoreCase now) row.truth permitted :=
    admitsBesideAnd_of_admits_restrict (canonical_restrictToPointers hq hp).sorted
      (permissionColumn_ne op rfl) (isExact_oneOf _) (restrictTo_eq op permitted groups ▸ h)
  refine ⟨?_, ?_, ?_⟩
  · exact isOpenTo_of_admitsEntry hpublic
      (Compiler.admits_iff.mp h _ (Dict.mem_of_get? (get?_restrictTo op permitted groups)))
  · intro hfields htakes
    exact admits_of_restrictToPointers hq hp hfields htakes hpermitted
  · intro hfields hdenied hne
    exact pointsAt_of_restrictToPointers hq hp hfields hpermitted hdenied hne

/-! ## The steps of preparing -/

/-- A query is restricted for reading by pointer fields first and by its column then. -/
theorem restrictRead_eq_ok (hcaller : caller.groups? = some groups)
    (h : restrictRead schema op caller query = .ok (some (restricted, hidden))) :
    ∃ permitted, restrictToPointers schema op query groups = .ok (some permitted)
      ∧ restricted = restrictTo op permitted groups := by
  unfold restrictRead at h
  rw [hcaller] at h
  obtain ⟨_, _, h⟩ := bind_eq_ok.mp h
  obtain ⟨found, hfound, h⟩ := bind_eq_ok.mp h
  cases found with
  | none => cases pure_eq_ok.mp h
  | some permitted =>
    refine ⟨permitted, hfound, ?_⟩
    exact (Prod.mk.inj (Option.some.inj (pure_eq_ok.mp h))).1.symm

/-- A query is restricted for writing in the same way. -/
theorem restrictWrite_eq_ok (hop : op = .update ∨ op = .delete)
    (hcaller : caller.groups? = some groups)
    (h : restrictWrite schema op caller query = .ok restricted) :
    ∃ permitted, restrictToPointers schema op query groups = .ok (some permitted)
      ∧ restricted = restrictTo op permitted groups := by
  unfold restrictWrite at h
  rw [hcaller] at h
  obtain ⟨_, _, h⟩ := bind_eq_ok.mp h
  obtain ⟨found, hfound, h⟩ := bind_eq_ok.mp h
  cases found with
  | none => exact absurd h throw_ne_ok
  | some permitted =>
    have hrestricted := pure_eq_ok.mp h
    refine ⟨permitted, hfound, ?_⟩
    rcases hop with rfl | rfl <;> exact hrestricted.symm

/-! ## Preparing in a session -/

/-- Whoever gets past an authorization is permitted the operation. -/
theorem ensures_authorize {P : Statement → Prop} (className : String) (caller : Caller)
    (op : Operation) (s : Session) :
    Ensures P s (authorize className caller op) fun _ s' =>
      s' = s ∧ s.Permits className caller op := by
  unfold authorize
  cases hcaller : caller.groups? with
  | none => exact ensures_pure ⟨rfl, fun _ h => nomatch hcaller.symm.trans h⟩
  | some groups =>
    have hpermissions : Ensures P s (Classes.permissions? className) fun permissions s' =>
        permissions = (s.classes.get? className).bind (·.permissions) ∧ s' = s := by
      refine ensures_bind (Classes.ensures_loaded? className s) ?_
      intro loaded _ _ h
      obtain ⟨rfl, rfl⟩ := h
      exact ensures_pure ⟨rfl, rfl⟩
    refine ensures_bind hpermissions ?_
    intro permissions s' _ h
    obtain ⟨rfl, rfl⟩ := h
    refine ensures_ofResult fun _ hvalid => ⟨rfl, ?_⟩
    intro groups' h'
    obtain rfl := Option.some.inj (hcaller.symm.trans h')
    exact hvalid

theorem sends_joinTables {P : Statement → Prop} : Sends P joinTables :=
  sends_bind (sends_bind sends_classes fun _ => sends_pure _) fun _ => sends_pure _

/-- Resolving the relations of a query only looks up edges, and keeps a canonical query canonical.
-/
theorem ensures_resolveRelations (className : String) (schema : Schema) (query : Object)
    (s : Session) :
    Ensures IsLookup s (resolveRelations className schema query)
      fun resolved _ => query.Canonical → resolved.Canonical :=
  ensures_bind (sends_joinTables s) fun _ s₁ _ _ =>
    JoinTables.ensures_resolve className schema query s₁

/-- A query that is prepared for reading is the resolved query, restricted for its caller and found
valid. -/
theorem ensures_prepareRead (store : Store) (className : String) (query : Object) (op : Operation)
    (caller : Caller) (s : Session) :
    Ensures IsLookup s (prepareRead store className query op caller) fun prepared _ =>
      ∀ read, prepared = some read → read.schema = s.schemaOf className
        ∧ ∃ resolved restricted,
          ((resolveRelations className (s.schemaOf className) query).run s).1 = .ok resolved
          ∧ (query.Canonical → resolved.Canonical)
          ∧ restrictRead (s.schemaOf className) op caller resolved
            = .ok (some (restricted, read.hidden))
          ∧ validate store.settings.movesOrConstraints restricted = .ok read.query := by
  refine ensures_bind (Classes.ensures_loaded? className s) ?_
  intro loaded s₁ _ h
  obtain ⟨rfl, rfl⟩ := h
  cases hget : s₁.classes.get? className with
  | none => exact ensures_pure fun _ h => by cases h
  | some schema =>
    have hschema : s₁.schemaOf className = schema := by rw [Session.schemaOf, hget]; rfl
    rw [hschema]
    refine ensures_bind (ensures_authorize className caller op s₁) ?_
    intro _ s₂ _ h
    obtain ⟨rfl, _⟩ := h
    refine ensures_bind (ensures_resolveRelations className schema query s₂).self ?_
    intro resolved s₃ _ h
    obtain ⟨hresolved, hrun⟩ := h
    refine ensures_bind_ofResult ?_
    intro found hfound
    rcases found with _ | ⟨restricted, hidden⟩
    · exact ensures_pure fun _ h => by cases h
    · refine ensures_bind_ofResult fun valid hvalid => ensures_pure ?_
      rintro read hread
      obtain rfl := Option.some.inj hread
      exact ⟨rfl, resolved, restricted, by rw [hrun], hresolved, hfound, hvalid⟩

end Request

end ObjectStore
