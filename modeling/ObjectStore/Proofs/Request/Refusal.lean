import ObjectStore.Proofs.Request.Sending

/-!
# Calls that touch nothing

Whoever is not permitted an operation is refused before anything is done: the session is the one
that the call started in (`run_answer_refused`). Where an operation is left to pointer fields and
the groups do not name exactly one user that these could point at, the caller can see no object.
Such a call may look up the relations that its query names, and then answers that there is nothing
(`run_answer_nothing`).

Nothing, that is an empty answer to a call that asks for whatever there is, and a failure of one
that asks for an object or changes some; a search that is made to get an object is of the latter
kind. Creating is never left to pointer fields: whoever gets past the authorization may create.
-/

namespace ObjectStore

/-- The permissions of a class, as a session knows it. -/
def Session.permissionsOf (s : Session) (className : String) : Option Permissions :=
  (s.schemaOf className).permissions

/-- The permissions of a class are those of the loaded one. -/
theorem Session.permissionsOf_eq (s : Session) (className : String) :
    s.permissionsOf className = (s.classes.get? className).bind (·.permissions) := by
  rw [permissionsOf, schemaOf]
  cases s.classes.get? className <;> rfl

namespace Work

variable {α β : Type} {w : Work α} {f : α → Work β} {s s' : Session} {a : α} {e : Error}

theorem run_bind_ok (h : w.run s = (.ok a, s')) : (w >>= f).run s = (f a).run s' := by
  rw [run_bind, h]

theorem run_bind_error (h : w.run s = (.error e, s')) : (w >>= f).run s = (.error e, s') := by
  rw [run_bind, h]

theorem run_ofResult (result : Result α) (s : Session) : (ofResult result).run s = (result, s) := by
  cases result <;> rfl

end Work

namespace Request

open Access Result Work Statement

/-! ## Answers -/

namespace RowCall

/-- What a call answers. -/
def answer (store : Store) (className : String) (caller : Caller) : RowCall → Work Json
  | .find query options => do
    pure (.arr ((← Request.find store className query options caller).map .obj))
  | .get id => do pure (.obj (← Request.get store className id caller))
  | .count query => do pure (.int (← Request.count store className query caller))
  | .distinct query field => do
    pure (.arr (← Request.distinct store className query field caller))
  | .update query submitted options => do
    pure (.obj (← Request.update store className query submitted options caller))
  | .destroy query => do
    Request.destroy className query caller
    pure .null

/-- What a call answers that can see no object. -/
def nothing : RowCall → Result Json
  | .find _ options =>
    if options.operation = some .get then .error (.objectNotFound .noObject) else .ok (.arr [])
  | .count _ => .ok (.int 0)
  | .distinct .. => .ok (.arr [])
  | .get _ | .update .. | .destroy _ => .error (.objectNotFound .noObject)

end RowCall

/-- Some groups can see no object: an operation is left to pointer fields, and the groups do not
name exactly one user for these to point at. -/
structure SeesNothing (schema : Schema) (groups : List String) (op : Operation) : Prop where
  notGranted : Permissions.allows schema.permissions groups op = false
  fields : pointerFields schema op ≠ []
  noUser : ∀ user, users groups ≠ [user]

variable {store : Store} {className : String} {schema : Schema} {op : Operation} {caller : Caller}
  {groups : List String} {query : Object} {s s' : Session} {e : Error}

/-! ## Authorization -/

theorem run_loaded? (className : String) (s : Session) :
    (Classes.loaded? className).run s = (.ok (s.classes.get? className), s) :=
  rfl

/-- An authorization only looks at the permissions of the class. -/
theorem run_authorize (className : String) (op : Operation) (hcaller : caller.groups? = some groups)
    (s : Session) : (authorize className caller op).run s
      = (Permissions.validate (s.permissionsOf className) className groups op, s) := by
  rw [authorize, hcaller, Session.permissionsOf_eq]
  exact run_ofResult _ s

/-- A class without permissions permits everything, so a class that does not is loaded. -/
theorem exists_loaded (h : s.permissionsOf className ≠ none) :
    ∃ schema, s.classes.get? className = some schema ∧ s.schemaOf className = schema := by
  rw [Session.permissionsOf_eq] at h
  cases hget : s.classes.get? className with
  | none => exact absurd (by rw [hget]; rfl) h
  | some schema => exact ⟨schema, rfl, by rw [Session.schemaOf, hget]; rfl⟩

theorem permissionsOf_ne_none_of_refused
    (h : Permissions.validate (s.permissionsOf className) className groups op = .error e) :
    s.permissionsOf className ≠ none := by
  intro hnone
  rw [hnone] at h
  cases h

/-! ## Refused calls -/

/-- A query that is not permitted is not prepared. -/
theorem run_prepareRead_refused (hcaller : caller.groups? = some groups)
    (h : Permissions.validate (s.permissionsOf className) className groups op = .error e) :
    (prepareRead store className query op caller).run s = (.error e, s) := by
  obtain ⟨schema, hloaded, _⟩ := exists_loaded (permissionsOf_ne_none_of_refused h)
  have hrefused : (authorize className caller op).run s = (.error e, s) := by
    rw [run_authorize className op hcaller, h]
  rw [prepareRead, run_bind_ok (run_loaded? className s), hloaded]
  exact run_bind_error hrefused

/-- A call that is not permitted is refused, and nothing is done for it. -/
theorem run_answer_refused (call : RowCall) (hcaller : caller.groups? = some groups)
    (h : Permissions.validate (s.permissionsOf className) className groups call.operation
      = .error e) : (call.answer store className caller).run s = (.error e, s) := by
  have hfind : ∀ query options,
      Permissions.validate (s.permissionsOf className) className groups
        (options.operation.getD .find) = .error e →
      (find store className query options caller).run s = (.error e, s) :=
    fun query options h => run_bind_error (run_prepareRead_refused hcaller h)
  have hauthorize : ∀ op,
      Permissions.validate (s.permissionsOf className) className groups op = .error e →
      (authorize className caller op).run s = (.error e, s) := by
    intro op h
    rw [run_authorize className op hcaller, h]
  cases call with
  | find query options => exact run_bind_error (hfind query options h)
  | get id => exact run_bind_error (run_bind_error (hfind _ _ h))
  | count query => exact run_bind_error (run_bind_error (run_prepareRead_refused hcaller h))
  | distinct query field =>
    exact run_bind_error (run_bind_error (run_prepareRead_refused hcaller h))
  | update query submitted options => exact run_bind_error (run_bind_error (hauthorize _ h))
  | destroy query => exact run_bind_error (run_bind_error (hauthorize _ h))

/-- What keeps an object from being created for a caller that may not create any: the object itself
is looked at first. -/
theorem run_create_refused {submitted : Object} (hcaller : caller.groups? = some groups)
    (h : Permissions.validate (s.permissionsOf className) className groups .create = .error e) :
    (create store className submitted caller).run s
      = ((do let _ ← storedForm submitted; .error e), s) := by
  unfold create
  rw [run_bind, run_ofResult]
  cases storedForm submitted with
  | error e' => rfl
  | ok stored =>
    have hrefused : (authorize className caller .create).run s = (.error e, s) := by
      rw [run_authorize className .create hcaller, h]
    exact run_bind_error hrefused

/-- Only masters may run a pipeline. -/
theorem run_aggregate_refused (pipeline : List Json) (hcaller : caller.groups? = some groups)
    (s : Session) : (aggregate className pipeline caller).run s
      = (.error (.operationForbidden .masterRequired), s) := by
  have hmaster : caller.isMaster = false := by
    cases caller with
    | master => cases hcaller
    | anonymous | user => rfl
  rw [aggregate, hmaster]
  rfl

/-! ## Calls that can see nothing -/

/-- A query of groups that can see nothing is not restricted to anything. -/
theorem SeesNothing.restrictToPointers_eq (h : SeesNothing schema groups op) (query : Object) :
    restrictToPointers schema op query groups = .ok none :=
  restrictToPointers_eq_none h.notGranted h.fields h.noUser

theorem restrictRead_eq_none (hcaller : caller.groups? = some groups)
    (h : SeesNothing schema groups op) :
    restrictRead schema op caller query = (do refuseWriterQuery query; .ok none) := by
  simp only [restrictRead, hcaller, h.restrictToPointers_eq]
  cases refuseWriterQuery query <;> rfl

theorem restrictWrite_eq_error (hcaller : caller.groups? = some groups)
    (h : SeesNothing schema groups op) :
    restrictWrite schema op caller query
      = (do refuseWriterQuery query; .error (.objectNotFound .noObject)) := by
  simp only [restrictWrite, hcaller, h.restrictToPointers_eq]
  cases refuseWriterQuery query <;> rfl

/-- A class whose objects some groups cannot see is loaded. -/
theorem SeesNothing.exists_loaded (h : SeesNothing (s.schemaOf className) groups op) :
    ∃ schema, s.classes.get? className = some schema ∧ s.schemaOf className = schema := by
  refine Request.exists_loaded fun hnone => h.fields ?_
  rw [pointerFields, show (s.schemaOf className).permissions = none from hnone]
  rfl

/-- A query of groups that can see nothing is prepared to nothing, once its relations are looked
up. -/
theorem run_prepareRead_nothing (hcaller : caller.groups? = some groups)
    (hpermitted : Permissions.validate (s.permissionsOf className) className groups op = .ok ())
    (h : SeesNothing (s.schemaOf className) groups op) :
    (prepareRead store className query op caller).run s
      = ((do
          let asked ← ((resolveRelations className (s.schemaOf className) query).run s).1
          refuseWriterQuery asked
          .ok none),
        ((resolveRelations className (s.schemaOf className) query).run s).2) := by
  obtain ⟨schema, hloaded, hschema⟩ := h.exists_loaded
  rw [hschema] at h ⊢
  have hauthorize : (authorize className caller op).run s = (.ok (), s) := by
    rw [run_authorize className op hcaller, hpermitted]
  rw [prepareRead, run_bind_ok (run_loaded? className s), hloaded]
  dsimp only
  rw [run_bind_ok hauthorize, run_bind]
  rcases (resolveRelations className schema query).run s with ⟨e | asked, s₁⟩
  · rfl
  · dsimp only
    rw [restrictRead_eq_none hcaller h, run_bind, run_ofResult]
    cases hwriters : refuseWriterQuery asked <;> simp [bind, Except.bind, hwriters]
    rfl

/-- Whatever reads rows on behalf of groups that can see nothing goes on with nothing. -/
theorem run_bind_prepareRead_nothing {α : Type} {f : Option PreparedRead → Work α}
    {nothing : Result α} (hcaller : caller.groups? = some groups)
    (hpermitted : Permissions.validate (s.permissionsOf className) className groups op = .ok ())
    (h : SeesNothing (s.schemaOf className) groups op)
    (hnothing : ∀ s', (f none).run s' = (nothing, s')) :
    (prepareRead store className query op caller >>= f).run s
      = ((do
          let asked ← ((resolveRelations className (s.schemaOf className) query).run s).1
          refuseWriterQuery asked
          nothing),
        ((resolveRelations className (s.schemaOf className) query).run s).2) := by
  rw [run_bind, run_prepareRead_nothing hcaller hpermitted h]
  rcases (resolveRelations className (s.schemaOf className) query).run s with ⟨e | asked, s₁⟩
  · rfl
  · cases hwriters : refuseWriterQuery asked <;> simp [bind, Except.bind, hwriters, hnothing]

/-- A search that can see nothing finds nothing, unless it is made to get an object. -/
theorem run_findNothing (query : Object) (options : FindOptions) (s : Session) :
    (do pure (.arr ((← ofResult (findNothing (options.operation.getD .find))).map .obj)) :
        Work Json).run s = ((RowCall.find query options).nothing, s) := by
  simp only [findNothing, RowCall.nothing]
  rcases options.operation with _ | (_ | _ | _ | _ | _ | _ | _) <;> rfl

/-- Whatever writes rows on behalf of groups that can see nothing fails. -/
theorem run_bind_prepareWrite_nothing {α : Type} {f : Object → Work α}
    (hcaller : caller.groups? = some groups) (h : SeesNothing schema groups op) (s : Session) :
    (ofResult (prepareWrite schema op caller query) >>= f).run s
      = ((do refuseWriterQuery query; .error (.objectNotFound .noObject)), s) := by
  rw [run_bind, run_ofResult, prepareWrite, restrictWrite_eq_error hcaller h]
  cases refuseWriterQuery query <;> rfl

theorem run_bind_update_nothing {α : Type} {submitted : Object} {options : UpdateOptions}
    {f : Object → Work α} (hcaller : caller.groups? = some groups)
    (hpermitted :
      Permissions.validate (s.permissionsOf className) className groups .update = .ok ())
    (h : SeesNothing (s.schemaOf className) groups .update) :
    (update store className query submitted options caller >>= f).run s
      = ((do refuseWriterQuery query; .error (.objectNotFound .noObject)), s) := by
  obtain ⟨schema, hloaded, hschema⟩ := h.exists_loaded
  have hauthorize : (authorize className caller .update).run s = (.ok (), s) := by
    rw [run_authorize className .update hcaller, hpermitted]
  have hclass : (classToUpdate store className options.upsert).run s = (.ok schema, s) := by
    rw [classToUpdate, run_bind_ok (run_loaded? className s), hloaded]
    rfl
  simp only [update, bind_assoc]
  rw [run_bind_ok hauthorize, run_bind_ok hclass]
  exact run_bind_prepareWrite_nothing hcaller (hschema ▸ h) s

theorem run_bind_destroy_nothing {α : Type} {f : Unit → Work α}
    (hcaller : caller.groups? = some groups)
    (hpermitted :
      Permissions.validate (s.permissionsOf className) className groups .delete = .ok ())
    (h : SeesNothing (s.schemaOf className) groups .delete) :
    (destroy className query caller >>= f).run s
      = ((do refuseWriterQuery query; .error (.objectNotFound .noObject)), s) := by
  obtain ⟨schema, hloaded, hschema⟩ := h.exists_loaded
  have hauthorize : (authorize className caller .delete).run s = (.ok (), s) := by
    rw [run_authorize className .delete hcaller, hpermitted]
  simp only [destroy, bind_assoc]
  rw [run_bind_ok hauthorize, run_bind_ok (run_loaded? className s), hloaded]
  exact run_bind_prepareWrite_nothing hcaller (hschema ▸ h) s

/-- A call that can see no object answers so once it has looked up the relations of its query, and
has done nothing else. -/
theorem run_answer_nothing (call : RowCall) (hcaller : caller.groups? = some groups)
    (hpermitted : Permissions.validate (s.permissionsOf className) className groups call.operation
      = .ok ())
    (h : SeesNothing (s.schemaOf className) groups call.operation) :
    ((call.answer store className caller).run s).1 = (do
        let asked ← call.asked className s
        refuseWriterQuery asked
        call.nothing)
      ∧ ∀ statement ∈ (call.answer store className caller).sent s, statement.IsLookup := by
  -- a call that reads ends where the relations of its query are looked up
  have hread : ∀ (w : Work Json), w.run s = ((do
        let asked ← ((resolveRelations className (s.schemaOf className) call.query).run s).1
        refuseWriterQuery asked
        call.nothing), ((resolveRelations className (s.schemaOf className) call.query).run s).2) →
      (w.run s).1 = (do
        let asked ← ((resolveRelations className (s.schemaOf className) call.query).run s).1
        refuseWriterQuery asked
        call.nothing)
      ∧ ∀ statement ∈ w.sent s, statement.IsLookup := by
    intro w hrun
    refine ⟨congrArg Prod.fst hrun, ?_⟩
    intro statement hsent
    rw [sent, congrArg Prod.snd hrun] at hsent
    exact (ensures_resolveRelations className _ call.query s).of_mem_sent hsent
  -- one that writes ends where it started
  have hwrite : ∀ (w : Work Json) query, w.run s = ((do
        refuseWriterQuery query
        .error (.objectNotFound .noObject)), s) →
      (w.run s).1 = (do
        let asked ← .ok query
        refuseWriterQuery asked
        .error (.objectNotFound .noObject))
      ∧ ∀ statement ∈ w.sent s, statement.IsLookup := by
    intro w query hrun
    refine ⟨congrArg Prod.fst hrun, ?_⟩
    intro statement hsent
    simp [sent, congrArg Prod.snd hrun] at hsent
  cases call with
  | find query options =>
    refine hread _ ?_
    simp only [RowCall.answer, find, bind_assoc]
    exact run_bind_prepareRead_nothing hcaller hpermitted h (run_findNothing query options)
  | get id =>
    refine hread _ ?_
    simp only [RowCall.answer, get, find, bind_assoc]
    exact run_bind_prepareRead_nothing hcaller hpermitted h fun _ => rfl
  | count query =>
    refine hread _ ?_
    simp only [RowCall.answer, count, bind_assoc]
    exact run_bind_prepareRead_nothing hcaller hpermitted h fun _ => rfl
  | distinct query field =>
    refine hread _ ?_
    simp only [RowCall.answer, distinct, bind_assoc]
    exact run_bind_prepareRead_nothing hcaller hpermitted h fun _ => rfl
  | update query submitted options =>
    exact hwrite _ query (run_bind_update_nothing hcaller hpermitted h)
  | destroy query => exact hwrite _ query (run_bind_destroy_nothing hcaller hpermitted h)

/-! ## All calls -/

/-- Whatever a caller that is no master asks for: what it is not permitted is refused with nothing
done, and so is a pipeline; and where it can see no object, it is told so with nothing sent but
lookups of edges. -/
theorem refused_or_sees_nothing (store : Store) (className : String) (caller : Caller)
    (groups : List String) (hcaller : caller.groups? = some groups) (s : Session) :
    (∀ (call : RowCall) (e : Error),
      Permissions.validate (s.permissionsOf className) className groups call.operation = .error e →
        (call.answer store className caller).run s = (.error e, s))
    ∧ (∀ (submitted : Object) (e : Error),
      Permissions.validate (s.permissionsOf className) className groups .create = .error e →
        (create store className submitted caller).run s
          = ((do let _ ← storedForm submitted; .error e), s))
    ∧ (∀ pipeline, (aggregate className pipeline caller).run s
        = (.error (.operationForbidden .masterRequired), s))
    ∧ ∀ call : RowCall,
      Permissions.validate (s.permissionsOf className) className groups call.operation = .ok () →
      SeesNothing (s.schemaOf className) groups call.operation →
        ((call.answer store className caller).run s).1 = (do
          let asked ← call.asked className s
          refuseWriterQuery asked
          call.nothing)
        ∧ ∀ statement ∈ (call.answer store className caller).sent s, statement.IsLookup := by
  refine ⟨?_, ?_, ?_, ?_⟩
  · intro call e hrefused
    exact run_answer_refused call hcaller hrefused
  · intro submitted e hrefused
    exact run_create_refused hcaller hrefused
  · intro pipeline
    exact run_aggregate_refused pipeline hcaller s
  · intro call hpermitted hnothing
    exact run_answer_nothing call hcaller hpermitted hnothing

/-- A session that knows one class, whose objects nobody may change and only their owners may see;
whoever creates one must be known. -/
def reservedPosts : Session where
  rowAnswers := []
  changeAnswers := []
  now := ⟨0, 0⟩
  randomBytes := fun _ => Vector.replicate 10 0
  classes :=
    [("Post", { (Schema.ofClass "Post").withField "owner" (.pointer userClass) with
      permissions := some
        { find := some ⟨false, ["owner"], []⟩
          get := some ⟨false, ["owner"], []⟩
          create := some ⟨true, ["owner"], []⟩
          update := some .none } })]

theorem seesNothing_reservedPosts (op : Operation) (hop : op = .find ∨ op = .get) :
    SeesNothing (reservedPosts.schemaOf "Post") [publicGroup] op := by
  rcases hop with rfl | rfl <;> exact ⟨rfl, nofun, fun _ => nofun⟩

/-- Who is not known may not change posts, and finds none. -/
theorem update_refused_and_find_sees_nothing :
    ((RowCall.update [] [] {}).answer ⟨{}, .given⟩ "Post" .anonymous).run reservedPosts
        = (.error (.operationForbidden (.denied .update "Post")), reservedPosts)
      ∧ (((RowCall.find [] {}).answer ⟨{}, .given⟩ "Post" .anonymous).run reservedPosts).1
        = .ok (.arr [])
      ∧ ∀ statement ∈ ((RowCall.find [] {}).answer ⟨{}, .given⟩ "Post" .anonymous).sent
          reservedPosts, statement.IsLookup := by
  obtain ⟨hrefused, _, _, hnothing⟩ :=
    refused_or_sees_nothing ⟨{}, .given⟩ "Post" .anonymous [publicGroup] rfl reservedPosts
  exact ⟨hrefused (.update [] [] {}) _ rfl,
    hnothing (.find [] {}) rfl (seesNothing_reservedPosts .find (Or.inl rfl))⟩

/-- A search that is made to get a post fails where it can see none; and a user that no group names,
to whom no field can point, still creates posts. -/
theorem find_for_get_fails_and_create_inserts :
    (Permissions.validate (reservedPosts.permissionsOf "Post") "Post" [publicGroup] .get = .ok ()
      ∧ SeesNothing (reservedPosts.schemaOf "Post") [publicGroup] .get
      ∧ ((find ⟨{}, .given⟩ "Post" [] { operation := some .get } .anonymous).run reservedPosts).1
        = .error (.objectNotFound .noObject))
    ∧ (Permissions.validate (reservedPosts.permissionsOf "Post") "Post" [publicGroup, "role:a"]
          .create = .ok ()
      ∧ SeesNothing (reservedPosts.schemaOf "Post") [publicGroup, "role:a"] .create
      ∧ ∃ columns, Statement.insert "Post" columns ∈
          (create ⟨{}, .given⟩ "Post" [] (.user "role:a" [])).sent reservedPosts) := by
  refine ⟨⟨rfl, seesNothing_reservedPosts .get (Or.inr rfl), rfl⟩, rfl,
    ⟨rfl, nofun, fun _ => nofun⟩, ?_⟩
  obtain ⟨columns, hsent⟩ : ∃ columns,
      (create ⟨{}, .given⟩ "Post" [] (.user "role:a" [])).sent reservedPosts
        = [.insert "Post" columns] := ⟨_, rfl⟩
  exact ⟨columns, hsent ▸ List.mem_singleton.mpr rfl⟩

end Request

end ObjectStore
