import ObjectStore.Proofs.Relation.Edges
import ObjectStore.Proofs.Request.Creation

/-!
# Edges follow their object

A call that creates or updates objects writes these first, with one statement, and then the edges
that its changes to relations ask for. `EdgesFollow` is what this means for the trace of a call: if
the objects are not written, the call fails and nothing is sent for any edge; if they are, whatever
is sent for an edge comes later and starts from one of these objects, and a call that succeeds has
settled each edge that it was asked for, once.

A single object that is updated is the first that the engine gives back, even if it should give back
more. With the exception of removals from a join table that is missing, an edge is settled when it
is written (`RelationStatement.isSettledBy`).
-/

namespace ObjectStore

namespace Request

open Result Work Statement Objects
open Event (WritesNoEdge)

variable {α β : Type} {store : Store} {className : String} {schema : Schema} {caller : Caller}
  {query update submitted object : Object} {updates : List RelationUpdate}

/-! ## What is asked for -/

/-- The changes to relations that a call makes. -/
def Call.relationUpdates : Call → List RelationUpdate
  | .create submitted =>
    match storedForm submitted with
    | .ok stored => RelationUpdate.collect stored
    | .error _ => []
  | .rows (.update _ submitted _) => RelationUpdate.collect submitted
  | .rows (.find ..) | .rows (.get _) | .rows (.count _) | .rows (.distinct ..)
  | .rows (.destroy _) | .aggregate _ | .deleteClass | .purge => []

/-- The edges that changes to relations ask for of an object, if it has an id. -/
def edgesOf (className : String) (updates : List RelationUpdate) (object : Object) :
    List RelationStatement :=
  match idOf object with
  | none => []
  | some id => updates.flatMap (·.edges className id)

/-- Applying changes to an object sends for the edges that they ask of it, and for none without an
id. -/
theorem leavesEdges_applyRelations :
    LeavesEdges (edgesOf className updates object)
      (applyRelations className (idOf object) updates) := by
  unfold edgesOf applyRelations
  cases idOf object with
  | none => exact leavesEdges_nil (leaves_pure rfl)
  | some id =>
    dsimp only
    split
    next hnone =>
      rw [List.isEmpty_iff.mp hnone]
      exact leavesEdges_nil (leaves_pure rfl)
    next =>
      exact leavesEdges_bind
        (leavesEdges_nil fun s => writesNoEdge_of_ensures (sends_joinTables s)) fun tables =>
          JoinTables.leavesEdges_applyUpdates updates

/-! ## How objects are written -/

/-- An object is inserted. -/
inductive Inserts (className : String) (schema : Schema) : List Object → Event → Prop
  | inserted {object : Object} {columns : List (String × Sql)} {count : Nat} :
    insertColumns className schema object = .ok columns →
      Inserts className schema [object] (.sent (.insert className columns) (.affected count))

/-- Objects are updated, and are those that come back. -/
inductive UpdatesAll (className : String) (schema : Schema) : List Object → Event → Prop
  | updated {filter : Filter} {assignments : Sql} {rows : List Row} {objects : List Object} :
    decodeRows schema rows = .ok objects →
      UpdatesAll className schema objects
        (.sent (.rows ⟨className, filter, .update assignments⟩) (.rows rows))

/-- An object is updated, and is the first that comes back, if any does. -/
inductive UpdatesOne (className : String) (schema : Schema) : List Object → Event → Prop
  | updated {filter : Filter} {assignments : Sql} {rows : List Row} {objects : List Object} :
    decodeRows schema rows = .ok objects →
      UpdatesOne className schema objects.head?.toList
        (.sent (.rows ⟨className, filter, .updateOne assignments⟩) (.rows rows))

/-- Objects are updated as the options of an update say: all that match, or one, which may be
inserted instead. -/
def Updates (options : UpdateOptions) (className : String) (schema : Schema)
    (objects : List Object) (write : Event) : Prop :=
  if options.many then UpdatesAll className schema objects write
  else UpdatesOne className schema objects write ∨
    options.upsert ∧ Inserts className schema objects write

/-- An event writes the objects of a call. -/
def Call.Writes (className : String) (schema : Schema) : Call → List Object → Event → Prop
  | .create _ => Inserts className schema
  | .rows (.update _ _ options) => Updates options className schema
  | .rows (.find ..) | .rows (.get _) | .rows (.count _) | .rows (.distinct ..)
  | .rows (.destroy _) | .aggregate _ | .deleteClass | .purge => fun _ _ => False

/-- Objects are written last, and no edges before; or there is a failure, and no edges at all. -/
inductive Wrote (Writes : List Object → Event → Prop) : Result (List Object) → List Event → Prop
  | failed {e : Error} {events : List Event} :
    WritesNoEdge events → Wrote Writes (.error e) events
  | wrote {objects : List Object} {before : List Event} {write : Event} :
    WritesNoEdge before → Writes objects write → Wrote Writes (.ok objects) (before ++ [write])

/-- Objects that were written one way were written in any way that allows it. -/
theorem Wrote.mono {Writes Writes' : List Object → Event → Prop} {result : Result (List Object)}
    {events : List Event} (h : Wrote Writes result events)
    (hwrites : ∀ objects write, Writes objects write → Writes' objects write) :
    Wrote Writes' result events := by
  cases h with
  | failed hevents => exact .failed hevents
  | wrote hbefore hwrite => exact .wrote hbefore (hwrites _ _ hwrite)

/-- Objects may be written with nothing before. -/
theorem Wrote.alone {Writes : List Object → Event → Prop} {objects : List Object} {write : Event}
    (h : Writes objects write) : Wrote Writes (.ok objects) [write] := by
  have hnone : WritesNoEdge [] := rfl
  exact List.nil_append [write] ▸ .wrote hnone h

/-- Where no write of objects writes an edge, none is written. -/
theorem Wrote.writesNoEdge {Writes : List Object → Event → Prop} {result : Result (List Object)}
    {events : List Event} (h : Wrote Writes result events)
    (hwrites : ∀ objects write, Writes objects write → write.edge? = none) :
    WritesNoEdge events := by
  cases h with
  | failed hevents => exact hevents
  | wrote hbefore hwrite => exact hbefore.append (by simp [WritesNoEdge, hwrites _ _ hwrite])

/-- Edges are written after the objects that they are asked of, as far as the work gets; before the
objects are written there are none. -/
inductive EdgesFollow (Writes : List Object → Event → Prop)
    (asked : Object → List RelationStatement) : Bool → List Event → Prop
  | unwritten {events : List Event} :
    WritesNoEdge events → EdgesFollow Writes asked false events
  | written {succeeded : Bool} {objects : List Object} {before edges : List Event}
    {write : Event} :
    WritesNoEdge before → Writes objects write →
      Settles (objects.flatMap asked) succeeded edges →
        EdgesFollow Writes asked succeeded (before ++ write :: edges)

/-- What a trace says does not depend on what is sent before, as long as no edge is written there;
the work may also fail there. -/
structure MayFollow (Q : Result α → List Event → Prop) : Prop where
  failed : ∀ e events, WritesNoEdge events → Q (.error e) events
  prepend : ∀ result events later, WritesNoEdge events → Q result later →
    Q result (events ++ later)

section Traces

variable {Writes Writes' : List Object → Event → Prop} {asked : Object → List RelationStatement}
  {toObjects : α → List Object} {w : Work α} {f : α → Work β}

/-- Work writes objects and gives them back in some form. -/
abbrev LeavesObjects (toObjects : α → List Object) (Writes : List Object → Event → Prop)
    (w : Work α) : Prop :=
  Leaves (fun result events => Wrote Writes (result.map toObjects) events) w

/-- Objects may be written after anything that writes no edge. -/
theorem mayFollow_wrote :
    MayFollow fun (result : Result α) events => Wrote Writes (result.map toObjects) events := by
  refine ⟨fun e events => .failed, ?_⟩
  intro result events later hevents h
  generalize result.map toObjects = written at h
  cases h with
  | failed hlater => exact .failed (hevents.append hlater)
  | wrote hbefore hwrites =>
    rw [← List.append_assoc]
    exact .wrote (hevents.append hbefore) hwrites

/-- Edges follow their objects, whatever is sent before that writes no edge. -/
theorem mayFollow_edgesFollow :
    MayFollow fun (result : Result α) events => EdgesFollow Writes asked result.isOk events := by
  refine ⟨fun e events => .unwritten, ?_⟩
  intro result events later hevents h
  generalize result.isOk = succeeded at h ⊢
  cases h with
  | unwritten hlater => exact .unwritten (hevents.append hlater)
  | written hbefore hwrites hedges =>
    rw [← List.append_assoc]
    exact .written (hevents.append hbefore) hwrites hedges

/-- Work after something that writes no edge leaves the trace that it leaves by itself. -/
theorem leavesFrom_bind_before {Q : Result β → List Event → Prop} {s : Session}
    {A : α → Session → Prop} (hQ : MayFollow Q)
    (h : Ensures (fun statement => statement.edge? = none) s w A)
    (hf : ∀ a s', A a s' → LeavesFrom s' Q (f a)) : LeavesFrom s Q (w >>= f) := by
  refine leavesFrom_bind (writesNoEdge_of_ensures h) ?_ fun e events => hQ.failed e events
  intro a s' events hrun hevents
  have hA := h.result a (by rw [hrun])
  rw [hrun] at hA
  obtain ⟨later, hjournal, hlater⟩ := hf a s' hA
  exact ⟨later, hjournal, hQ.prepend _ _ _ hevents hlater⟩

/-- Edges that are asked for of what work wrote last follow it. -/
theorem leaves_bind_edges (h : LeavesObjects toObjects Writes w)
    (hf : ∀ a, LeavesEdges ((toObjects a).flatMap asked) (f a)) :
    Leaves (fun result events => EdgesFollow Writes asked result.isOk events) (w >>= f) := by
  refine leaves_bind h ?_ ?_
  · intro a events hwrote
    refine (hf a).mono ?_
    intro _ edges hedges
    cases hwrote with
    | wrote hbefore hwrites =>
      rw [List.append_assoc]
      exact .written hbefore hwrites hedges
  · intro e _ hfailed
    cases hfailed with
    | failed hevents => exact .unwritten hevents

/-- Objects that were written may be given back in another form, and be written in other ways. -/
theorem leavesObjects_map {toObjects' : β → List Object} {g : α → β}
    (h : LeavesObjects toObjects Writes w)
    (hg : ∀ a write, Writes (toObjects a) write → Writes' (toObjects' (g a)) write) :
    LeavesObjects toObjects' Writes' (do pure (g (← w))) := by
  refine leaves_bind h ?_ ?_
  · intro a _ hwrote
    refine leaves_pure ?_
    rw [List.append_nil]
    cases hwrote with
    | wrote hbefore hwrites => exact .wrote hbefore (hg a _ hwrites)
  · intro e _ hfailed
    cases hfailed with
    | failed hevents => exact .failed hevents

/-- Rewording a failure changes nothing of what was written. -/
theorem leavesObjects_rewordFailure {reword : Error → Error}
    (h : LeavesObjects toObjects Writes w) :
    LeavesObjects toObjects Writes (w.rewordFailure reword) := by
  refine leaves_recover h (fun _ _ => id) fun e events hfailed => leaves_throw ?_
  cases hfailed with
  | failed hevents => exact .failed (hevents.append rfl)

end Traces

/-! ## Objects before edges -/

/-- An insertion writes the object that it is for. -/
theorem leavesObjects_insert :
    LeavesObjects (fun object => [object]) (Inserts className schema)
      (insert className schema object) := by
  refine leaves_bind_ofResult ?_ fun _ => .failed rfl
  intro fresh _
  refine leaves_bind_ofResult ?_ fun _ => .failed rfl
  intro columns hcolumns
  have hsent : LeavesObjects (fun _ => [fresh]) (Inserts className schema)
      (execute (.insert className columns)) :=
    leaves_execute (fun _ => .alone (.inserted hcolumns)) fun _ => .failed rfl
  exact leavesObjects_map (leavesObjects_rewordFailure hsent) fun _ _ => id

/-- Rows that come back from a statement are decoded to the objects that it wrote. -/
theorem leavesObjects_changed {statement : RowStatement} :
    LeavesObjects id (fun objects write => ∃ rows, decodeRows schema rows = .ok objects ∧
      write = .sent (.rows statement) (.rows rows)) (changed schema statement) := by
  have hquery : Leaves (fun result events => WritesNoEdge events ∧
        ∀ rows, result = .ok rows → events = [.sent (.rows statement) (.rows rows)])
      (query (.rows statement)) :=
    leaves_query (fun _ => ⟨rfl, fun _ heq => Except.ok.inj heq ▸ rfl⟩) fun _ => ⟨rfl, nofun⟩
  have hreworded : Leaves (fun result events => WritesNoEdge events ∧
        ∀ rows, result = .ok rows → events = [.sent (.rows statement) (.rows rows)])
      ((query (.rows statement)).rewordFailure Error.ofWrite) :=
    leaves_recover hquery (fun _ _ => id) fun _ _ hfailed =>
      leaves_throw ⟨hfailed.1.append rfl, nofun⟩
  refine leaves_bind hreworded ?_ fun _ _ hfailed => .failed hfailed.1
  intro rows events hrows
  obtain rfl := hrows.2 rows rfl
  cases hdecoded : decodeRows schema rows with
  | ok objects => exact leaves_pure (.alone ⟨rows, hdecoded, rfl⟩)
  | error e => exact leaves_throw (.failed rfl)

/-- What goes on with a filter is all that leaves a trace. -/
theorem leaves_bind_filterOf {Q : Result α → List Event → Prop} {f : Filter → Work α}
    (hQ : MayFollow Q) (hf : ∀ filter, Leaves Q (f filter)) :
    Leaves Q (filterOf schema query false >>= f) := by
  intro s
  have hsilent : Ensures (fun statement => statement.edge? = none) s (filterOf schema query false)
      fun _ _ => True :=
    ensures_bind (ensures_now (s := s)) fun _ s₁ _ _ => sends_ofResult _ s₁
  exact leavesFrom_bind_before hQ hsilent fun filter s' _ => hf filter s'

/-- An update of all writes the objects that come back. -/
theorem leavesObjects_updateAll :
    LeavesObjects id (UpdatesAll className schema) (updateAll className schema query update) := by
  refine leaves_bind_filterOf mayFollow_wrote ?_
  intro filter
  refine leaves_bind_ofResult ?_ fun _ => .failed rfl
  intro assignments _
  refine Leaves.mono leavesObjects_changed fun _ _ hwrote => hwrote.mono ?_
  rintro objects _ ⟨rows, hrows, rfl⟩
  exact .updated hrows

/-- An update of one writes the first object that comes back. -/
theorem leavesObjects_updateOne :
    LeavesObjects Option.toList (UpdatesOne className schema)
      (updateOne className schema query update) := by
  refine leaves_bind_filterOf mayFollow_wrote ?_
  intro filter
  refine leaves_bind_ofResult ?_ fun _ => .failed rfl
  intro assignments _
  refine leavesObjects_map leavesObjects_changed ?_
  rintro objects _ ⟨rows, hrows, rfl⟩
  exact .updated hrows

/-- What may be created is inserted, or updated after the insertion failed. -/
theorem leavesObjects_upsert :
    LeavesObjects Option.toList
      (fun objects write =>
        Inserts className schema objects write ∨ UpdatesOne className schema objects write)
      (upsert className schema query update) := by
  have hinsert : LeavesObjects Option.toList (Inserts className schema)
      (do pure (some (← insert className schema (described query update)))) :=
    leavesObjects_map leavesObjects_insert fun _ _ => id
  refine leaves_recover hinsert (fun _ _ hwrote => hwrote.mono fun _ _ => .inl) ?_
  intro e events hfailed
  cases hfailed with
  | failed hevents =>
    split
    next =>
      refine leavesObjects_updateOne.mono ?_
      intro _ _ hwrote
      exact mayFollow_wrote.prepend _ _ _ hevents (hwrote.mono fun _ _ => .inr)
    next => exact leaves_throw (.failed (hevents.append rfl))

/-- Objects are written as the options of the update say. -/
theorem leavesObjects_writeUpdate (options : UpdateOptions) :
    LeavesObjects id (Updates options className schema)
      (writeUpdate className schema query update options) := by
  unfold writeUpdate Updates
  split
  next => exact leavesObjects_updateAll
  next =>
    split
    next hupsert =>
      refine leavesObjects_map leavesObjects_upsert ?_
      intro _ _ hwrites
      rcases hwrites with hinserts | hupdates
      · exact .inr ⟨hupsert, hinserts⟩
      · exact .inl hupdates
    next =>
      refine leaves_bind leavesObjects_updateOne ?_ fun e _ hfailed => hfailed.mono fun _ _ => .inl
      intro found events hwrote
      cases found with
      | some row =>
        exact leaves_pure ((List.append_nil events).symm ▸ hwrote.mono fun _ _ => .inl)
      -- where nothing came back, nothing is written for any edge either
      | none =>
        have hnone : WritesNoEdge events := hwrote.writesNoEdge fun _ _ hwrites => by
          cases hwrites with
          | updated => rfl
        exact leaves_throw (.failed (hnone.append rfl))

/-! ## Calls -/

/-- A call writes its objects first and the edges that are asked of them then. -/
abbrev LeavesInOrder (s : Session) (className : String) (call : Call) (w : Work α) : Prop :=
  LeavesFrom s (fun result events => EdgesFollow (call.Writes className (s.schemaOf className))
    (edgesOf className call.relationUpdates) result.isOk events) w

/-- Creating a class writes no edge. -/
theorem edge?_of_creates {statement : Statement} (h : statement.Creates className) :
    statement.edge? = none := by
  rcases h with rfl | rfl
  · rfl
  · rfl

/-- Creating writes the object first and its edges then. -/
theorem leavesInOrder_create (s : Session) :
    LeavesInOrder s className (.create submitted)
      (Request.create store className submitted caller) := by
  refine leavesFrom_bind_ofResult ?_ fun _ => .unwritten rfl
  intro stored hstored
  have hupdates : (Call.create submitted).relationUpdates = RelationUpdate.collect stored := by
    rw [Call.relationUpdates, hstored]
  rw [hupdates]
  refine leavesFrom_bind_before mayFollow_edgesFollow
    (ensures_authorize className caller .create s) ?_
  intro _ s₁ hs
  obtain ⟨rfl, -⟩ := hs
  refine leavesFrom_bind_before mayFollow_edgesFollow
    (Classes.ensures_require store.source s₁ fun _ _ hst => edge?_of_creates hst) ?_
  intro schema s₂ hschema
  obtain rfl := hschema
  refine leavesFrom_bind_before mayFollow_edgesFollow (ensures_withId _) ?_
  intro identified s₃ _
  refine leavesFrom_bind_before mayFollow_edgesFollow (ensures_withTimestamps _ _) ?_
  intro object s₄ _
  -- with everything looked up, the object is inserted, and then the edges are sent for
  refine leaves_bind_edges leavesObjects_insert ?_ s₄
  intro created
  exact leavesEdges_bind leavesEdges_applyRelations fun _ => leavesEdges_nil (leaves_pure rfl)

/-- Updating writes the objects first and the edges of all of them then. -/
theorem leavesInOrder_update {options : UpdateOptions} (s : Session) :
    LeavesInOrder s className (.rows (.update query submitted options))
      (Request.update store className query submitted options caller) := by
  refine leavesFrom_bind_before mayFollow_edgesFollow
    (ensures_authorize className caller .update s) ?_
  intro _ s₁ hs
  obtain ⟨rfl, -⟩ := hs
  refine leavesFrom_bind_before mayFollow_edgesFollow
    (ensures_classToUpdate fun _ _ _ hst => edge?_of_creates hst) ?_
  intro schema s₂ hschema
  obtain rfl := hschema
  refine leavesFrom_bind_ofResult ?_ fun _ => .unwritten rfl
  intro prepared _
  refine leavesFrom_bind_ofResult ?_ fun _ => .unwritten rfl
  intro stored _
  refine leavesFrom_bind_before mayFollow_edgesFollow (ensures_withUpdateTime _ _) ?_
  intro written s₃ _
  refine leaves_bind_edges (leavesObjects_writeUpdate options) ?_ s₃
  intro rows
  rw [← List.append_nil (List.flatMap _ _)]
  exact leavesEdges_bind (leavesEdges_forM fun _ => leavesEdges_applyRelations)
    fun _ => leavesEdges_nil (leaves_pure rfl)

/-- Work that ends with an answer of no account leaves the same trace. -/
theorem LeavesInOrder.discard {s : Session} {call : Call} {w : Work α}
    (h : LeavesInOrder s className call w) :
    LeavesInOrder s className call (do let _ ← w) := by
  refine leavesFrom_bind h ?_ fun _ _ => id
  intro a s' events _ hfollow
  exact leaves_pure ((List.append_nil events).symm ▸ hfollow) s'

/-- Whether a call creates or updates objects. -/
def Call.writesObjects : Call → Bool
  | .create _ | .rows (.update ..) => true
  | .rows (.find ..) | .rows (.get _) | .rows (.count _) | .rows (.distinct ..)
  | .rows (.destroy _) | .aggregate _ | .deleteClass | .purge => false

/-- Each call that writes objects writes them before their edges. -/
theorem leavesInOrder_step (store : Store) {step : Step} (h : step.call.writesObjects)
    (s : Session) : LeavesInOrder s step.className step.call (step.run store) := by
  obtain ⟨className, caller, call⟩ := step
  cases call with
  | create submitted => exact (leavesInOrder_create s).discard
  | rows call =>
    cases call with
    | update query submitted options => exact (leavesInOrder_update s).discard
    | find | get | count | distinct | destroy => cases h
  | aggregate | deleteClass | purge => cases h

/-! ## Runs of calls -/

/-- What a call leaves: where it started, how it ended, and what it added to the journal. -/
structure Trace where
  start : Session
  result : Result Unit
  events : List Event

/-- The trace of a call that starts in a session. -/
def Step.trace (store : Store) (step : Step) (s : Session) : Trace :=
  ⟨s, ((step.run store).run s).1,
    ((step.run store).run s).2.journal.drop s.journal.length⟩

/-- The traces of calls that are made one after the other. -/
def traces (store : Store) : List Step → Session → List Trace
  | [], _ => []
  | step :: rest, s => step.trace store s :: traces store rest ((step.run store).run s).2

/-- The edges that a call asks for follow their objects in its trace. -/
def Trace.InOrder (step : Step) (trace : Trace) : Prop :=
  EdgesFollow (step.call.Writes step.className (trace.start.schemaOf step.className))
    (edgesOf step.className step.call.relationUpdates) trace.result.isOk trace.events

/-- The calls after the first start where it stopped, whether it succeeded or not. -/
theorem run_runSteps_cons (store : Store) (step : Step) (rest : List Step) (s : Session) :
    (runSteps store (step :: rest)).run s
      = (runSteps store rest).run ((step.run store).run s).2 := by
  rw [runSteps, run_bind, run_recover]
  rcases (step.run store).run s with ⟨_ | _, s'⟩ <;> rfl

/-- A run leaves the traces of its calls, one after the other. In each of them the edges follow
their objects. -/
theorem inOrder_runSteps (store : Store) (steps : List Step)
    (hsteps : ∀ step ∈ steps, step.call.writesObjects) (s : Session) :
    ((runSteps store steps).run s).2.journal
        = s.journal ++ (traces store steps s).flatMap Trace.events ∧
      List.Forall₂ Trace.InOrder steps (traces store steps s) := by
  induction steps generalizing s with
  | nil => exact ⟨(List.append_nil _).symm, .nil⟩
  | cons step rest ih =>
    obtain ⟨hstep, hrest⟩ := List.forall_mem_cons.mp hsteps
    obtain ⟨hjournal, hfollow⟩ := ih hrest ((step.run store).run s).2
    obtain ⟨events, hevents, horder⟩ := leavesInOrder_step store hstep s
    have htrace : step.trace store s = ⟨s, ((step.run store).run s).1, events⟩ := by
      rw [Step.trace, hevents, List.drop_left]
    rw [run_runSteps_cons, hjournal, traces, List.flatMap_cons, htrace, hevents, List.append_assoc]
    exact ⟨rfl, .cons horder hfollow⟩

/-- A session that knows teams, which have members, with the answers of its engine. -/
def teamSession (rowAnswers : List (Result (List Row))) (changeAnswers : List (Result Nat)) :
    Session where
  rowAnswers := rowAnswers
  changeAnswers := changeAnswers
  now := ⟨0, 0⟩
  randomBytes := fun _ => Vector.replicate 10 0
  classes := [("Team", (Schema.ofClass "Team").withField "members" (.relation "_User"))]

/-- The row of a team as it comes back. -/
def teamRow (id : String) : Row :=
  [(Row.recordColumn, .json (some (.obj [(objectIdField, .str id)])))]

/-- An operator on a relation to a user. -/
def relating (operator id : String) : Json :=
  .obj [("__op", .str operator), ("objects", .arr [.str id])]

/-- The join table of the members of a team. -/
def memberTable : JoinTable := ⟨"Team", "members"⟩

/-- The failure of a statement on the members of a team, if there is no join table. -/
def membersMissing : Error :=
  .storage "relation \"_Join:members:Team\" does not exist" (some .undefinedTable)

/-- Creating a team with a member, and replacing that member in all teams. -/
def replacingMember : List Step :=
  [⟨"Team", .master, .create [("members", relating "AddRelation" "u"), (objectIdField, .str "t")]⟩,
    ⟨"Team", .master, .rows (.update []
      [("members", .obj [("__op", .str "Batch"), ("ops", .arr
        [relating "RemoveRelation" "u", relating "AddRelation" "v"])])] { many := true })⟩]

/-- The member is written after the team, and replaced after the team comes back from its update,
although the join table was missing at first. -/
theorem replacingMember_inOrder :
    let s := teamSession [.ok [teamRow "t"]] [.ok 1, .error membersMissing]
    ((traces ⟨{}, .given⟩ replacingMember s).map fun trace =>
        trace.events.filterMap Event.settledEdge?)
      = [[.link memberTable "t" "u"], [.unlink memberTable "t" "u", .link memberTable "t" "v"]] ∧
    List.Forall₂ Trace.InOrder replacingMember (traces ⟨{}, .given⟩ replacingMember s) := by
  intro s
  have hsteps : ∀ step ∈ replacingMember, step.call.writesObjects := by decide
  exact ⟨by decide +kernel, (inOrder_runSteps ⟨{}, .given⟩ replacingMember hsteps s).2⟩

/-- Two updates that succeed without an edge for each of the rows that come back: one edge is not
removed for want of its join table, and of two rows in place of one only the first counts. -/
theorem update_succeeds_without_edges :
    (let step : Step := ⟨"Team", .master, .rows (.update [(objectIdField, .str "t")]
        [("members", relating "RemoveRelation" "u")] {})⟩
      let s := teamSession [.ok [teamRow "t"]] [.error membersMissing]
      ∃ write, step.trace ⟨{}, .given⟩ s = ⟨s, .ok (),
        [write, .sent (.relation (.unlink memberTable "t" "u")) (.failed membersMissing)]⟩) ∧
    (let step : Step := ⟨"Team", .master, .rows (.update []
        [("members", relating "AddRelation" "u")] {})⟩
      let s := teamSession [.ok [teamRow "t", teamRow "w"]] []
      ∃ statement, step.trace ⟨{}, .given⟩ s = ⟨s, .ok (),
        [.sent (.rows statement) (.rows [teamRow "t", teamRow "w"]),
          .sent (.relation (.link memberTable "t" "u")) (.affected 1)]⟩) :=
  ⟨⟨_, rfl⟩, ⟨_, rfl⟩⟩

end Request

end ObjectStore
