import ObjectStore.Proofs.Request.Sending
import ObjectStore.Request.Class

/-!
# Who may insert rows

Two calls insert rows: one that creates an object, and an update of one object that may create what
it does not match. The first has its caller permitted to create. The second has its caller permitted
to update only, so a row may come from a caller who may not create any
(`upsert_inserts_without_create`).

What a call inserts is known from the session that it starts in (`ensures_call`). A run of calls,
each going on where the one before it stopped, successfully or not, inserts what its calls insert
(`ensures_runSteps`).
-/

namespace ObjectStore

/-- A statement inserts rows of some classes only, if it inserts any. -/
def Statement.InsertsInto (classes : String → Prop) : Statement → Prop
  | .insert className _ => classes className
  | .rows _ | .aggregate .. | .relation _ | .metadata _ | .table _ => True

/-- Bookkeeping inserts no rows of classes. -/
theorem Statement.IsBookkeeping.insertsInto {classes : String → Prop} {statement : Statement}
    (h : statement.IsBookkeeping) : statement.InsertsInto classes := by
  cases statement with
  | insert => exact h.elim
  | rows | aggregate | relation | metadata | table => trivial

namespace Request

open Result Work Statement Objects

/-! ## Calls -/

/-- A call on a class. -/
inductive Call where
  | rows (call : RowCall)
  | aggregate (pipeline : List Json)
  | create (submitted : Object)
  | deleteClass
  | purge

namespace Call

/-- What a call does. -/
def run (store : Store) (className : String) (caller : Caller) : Call → Work Unit
  | .rows call => call.run store className caller
  | .aggregate pipeline => do let _ ← Request.aggregate className pipeline caller
  | .create submitted => do let _ ← Request.create store className submitted caller
  | .deleteClass => Request.deleteClass store className
  | .purge => Request.purge className

/-- The operation that a caller must be permitted for a call to insert a row, if it may insert
one. -/
def inserting? : Call → Option Operation
  | .create _ => some .create
  | .rows call => if call.mayInsert then some call.operation else none
  | .aggregate _ | .deleteClass | .purge => none

end Call

/-- A call of a caller on a class. -/
structure Step where
  className : String
  caller : Caller
  call : Call

/-- What is done for a call of a caller. -/
def Step.run (store : Store) (step : Step) : Work Unit :=
  step.call.run store step.className step.caller

/-- One call after another, each whether or not those before it succeeded. -/
def runSteps (store : Store) : List Step → Work Unit
  | [] => pure ()
  | step :: rest => do
    (step.run store).recover fun _ => pure ()
    runSteps store rest

variable {store : Store} {className : String} {schema : Schema} {caller : Caller}
  {s : Session} {classes : String → Prop}

/-! ## Calls on whole classes -/

/-- An aggregation inserts nothing. -/
theorem sends_aggregate {pipeline : List Json} :
    Sends (InsertsInto classes) (aggregate className pipeline caller) := by
  unfold aggregate
  split
  · exact sends_throw _
  · refine sends_bind (Classes.sends_loaded? className) ?_
    intro loaded
    cases loaded with
    | none => exact sends_pure _
    | some schema =>
      refine sends_bind (sends_rewordFailure ?_) fun _ => sends_pure _
      intro s
      exact Objects.ensures_aggregate fun _ _ => trivial

/-- Deleting a class inserts nothing. -/
theorem sends_deleteClass : Sends (InsertsInto classes) (deleteClass store className) := by
  refine sends_bind (Classes.sends_loaded? className) ?_
  intro loaded
  refine sends_bind (fun s => Objects.ensures_count (fun _ _ _ _ => trivial)
    fun _ _ _ => trivial) ?_
  intro count
  have hdelete : Sends IsBookkeeping (do
      Classes.delete className
      Classes.dropJoinTables (loaded.getD (.ofClass className))
      Classes.reload store.source
      Work.notify (.droppedClass className)) := by
    refine sends_bind (Classes.sends_delete className) fun _ => ?_
    refine sends_bind (Classes.sends_dropJoinTables _) fun _ => ?_
    exact sends_bind (Classes.sends_reload _) fun _ => sends_notify _
  have hinserts : Sends (InsertsInto classes) _ :=
    hdelete.weaken fun statement h => h.insertsInto
  split
  · exact sends_bind (sends_throw _) fun _ => hinserts
  · exact hinserts

/-- Purging a class inserts nothing. -/
theorem sends_purge : Sends (InsertsInto classes) (purge className) := by
  refine sends_bind (Classes.sends_loaded? className) ?_
  intro loaded
  cases loaded with
  | none => exact sends_pure _
  | some schema =>
    refine sends_recover ?_ ?_
    · exact sends_bind (fun s => Objects.ensures_delete fun _ _ _ _ => trivial)
        fun _ => sends_pure _
    intro e
    split
    · exact sends_pure _
    · exact sends_throw _

/-! ## Creating -/

/-- Creating an object inserts rows of its class only, for a caller who may create. -/
theorem ensures_create {submitted : Object} :
    Ensures (InsertsInto fun table => table = className ∧ s.Permits className caller .create) s
      (create store className submitted caller) fun _ _ => True :=
  ensures_create_of (fun _ h => h.insertsInto) fun _ _ hpermits _ _ _ _ _ _ => ⟨rfl, hpermits⟩

/-! ## Runs of calls -/

/-- A table is that of a class on which a caller is permitted what a call takes to insert rows. -/
def Call.MayInsert (call : Call) (className : String) (caller : Caller) (s : Session)
    (table : String) : Prop :=
  table = className ∧ ∃ op, call.inserting? = some op ∧ s.Permits className caller op

/-- A call inserts rows only where it may, by what the session permits when it starts. -/
theorem ensures_call (call : Call) (s : Session) :
    Ensures (InsertsInto (call.MayInsert className caller s)) s (call.run store className caller)
      fun _ _ => True := by
  cases call with
  | rows call =>
    refine ensures_runFor call ⟨fun _ h => h.insertsInto, ?_, fun _ _ _ _ _ _ _ _ => trivial,
      fun _ _ _ _ _ _ _ => trivial⟩
    intro hmay hpermits _ _ _
    refine ⟨rfl, call.operation, ?_, hpermits⟩
    simp [Call.inserting?, hmay]
  | aggregate => exact sends_bind sends_aggregate (fun _ => sends_pure _) s
  | create submitted =>
    refine (ensures_bind ensures_create fun _ _ _ _ => ensures_pure trivial).weaken ?_
    intro statement h
    cases statement with
    | insert => exact ⟨h.1, .create, rfl, h.2⟩
    | rows | aggregate | relation | metadata | table => trivial
  | deleteClass => exact sends_deleteClass s
  | purge => exact sends_purge s

/-- A statement of a run inserts rows only if one of its calls sent it and might insert them. -/
def InsertedBy (store : Store) (steps : List Step) (s : Session) (statement : Statement) : Prop :=
  statement.InsertsInto fun table => ∃ before step rest, steps = before ++ step :: rest ∧
    statement ∈ (step.run store).sent ((runSteps store before).run s).2 ∧
    step.call.MayInsert step.className step.caller ((runSteps store before).run s).2 table

/-- A run of calls inserts what its calls insert, by induction on the calls. -/
theorem ensures_runSteps (store : Store) (steps : List Step) (s : Session) :
    Ensures (InsertedBy store steps s) s (runSteps store steps) fun _ _ => True := by
  induction steps generalizing s with
  | nil => exact ensures_pure trivial
  | cons step rest ih =>
    have hstep : Ensures (InsertedBy store (step :: rest) s) s
        ((step.run store).recover fun _ => pure ()) fun _ _ => True := by
      refine ensures_recover ((ensures_call step.call s).of_sent.weaken ?_)
        fun _ _ _ => ensures_pure trivial
      intro statement h
      cases statement with
      | insert => exact ⟨[], step, rest, rfl, h.2, h.1⟩
      | rows | aggregate | relation | metadata | table => trivial
    refine ensures_bind hstep.self ?_
    intro _ s₁ _ h
    refine (ih s₁).weaken ?_
    intro statement hrest
    cases statement with
    | rows | aggregate | relation | metadata | table => trivial
    | insert =>
      -- the calls before the one that sent it now are those of the rest and the first one
      obtain ⟨before, later, after, rfl, hsent, hmay⟩ := hrest
      have hrun : (runSteps store (step :: before)).run s = (runSteps store before).run s₁ := by
        rw [runSteps, run_bind, h.2]
      exact ⟨step :: before, later, after, rfl, hrun ▸ hsent, hrun ▸ hmay⟩

/-- Whatever is called in whatever order, a row is inserted only by a call of a caller who is
permitted what that call takes: creating, or updating where an update may create what it does not
match. -/
theorem mayInsert_of_insert_sent (store : Store) (steps : List Step) (s : Session) (table : String)
    (columns : List (String × Sql))
    (hsent : Statement.insert table columns ∈ (runSteps store steps).sent s) :
    ∃ before step rest, steps = before ++ step :: rest ∧
      Statement.insert table columns ∈ (step.run store).sent ((runSteps store before).run s).2 ∧
      step.call.MayInsert step.className step.caller ((runSteps store before).run s).2 table :=
  (ensures_runSteps store steps s).of_mem_sent hsent

/-- A session that knows one class, whose objects only one user may create and all may change. -/
def authoredPosts : Session where
  rowAnswers := []
  changeAnswers := []
  now := ⟨0, 0⟩
  randomBytes := fun _ => Vector.replicate 10 0
  classes :=
    [("Post", { (Schema.ofClass "Post").withField "title" .string with
      permissions := some { create := some ⟨false, [], [("u", true)]⟩ } })]

/-- Deleting all posts and creating a new one. -/
def replacement : List Step :=
  [⟨"Post", .user "v" [], .rows (.destroy [])⟩,
    ⟨"Post", .user "u" [], .create [("title", .str "x")]⟩]

/-- A replacement inserts a row, for the one user who is permitted to create it. -/
theorem replacement_mayInsert :
    ∃ columns, Statement.insert "Post" columns ∈
        (runSteps ⟨{}, .given⟩ replacement).sent authoredPosts ∧
      ∃ before step rest, replacement = before ++ step :: rest ∧
        Statement.insert "Post" columns ∈
          (step.run ⟨{}, .given⟩).sent ((runSteps ⟨{}, .given⟩ before).run authoredPosts).2 ∧
        step.call.MayInsert step.className step.caller
          ((runSteps ⟨{}, .given⟩ before).run authoredPosts).2 "Post" := by
  obtain ⟨deletion, columns, hsent⟩ : ∃ deletion columns,
      (runSteps ⟨{}, .given⟩ replacement).sent authoredPosts
        = [deletion, .insert "Post" columns] := ⟨_, _, rfl⟩
  have hmem : Statement.insert "Post" columns ∈
      (runSteps ⟨{}, .given⟩ replacement).sent authoredPosts :=
    hsent ▸ List.mem_cons_of_mem _ List.mem_cons_self
  exact ⟨columns, hmem,
    mayInsert_of_insert_sent ⟨{}, .given⟩ replacement authoredPosts "Post" columns hmem⟩

/-- An update that may create what it does not match inserts a row for a caller who is not permitted
to create any. -/
theorem upsert_inserts_without_create :
    (∃ columns, Statement.insert "Post" columns ∈ (runSteps ⟨{}, .given⟩
      [⟨"Post", .anonymous, .rows (.update [(objectIdField, .str "p")] [("title", .str "x")]
        { upsert := true })⟩]).sent authoredPosts) ∧
    ¬ authoredPosts.Permits "Post" .anonymous .create := by
  obtain ⟨columns, hsent⟩ : ∃ columns, (runSteps ⟨{}, .given⟩
      [⟨"Post", .anonymous, .rows (.update [(objectIdField, .str "p")] [("title", .str "x")]
        { upsert := true })⟩]).sent authoredPosts = [.insert "Post" columns] := ⟨_, rfl⟩
  refine ⟨⟨columns, ?_⟩, ?_⟩
  · rw [hsent]
    exact List.mem_cons_self
  · intro hpermits
    exact nomatch hpermits [publicGroup] rfl

end Request

end ObjectStore
