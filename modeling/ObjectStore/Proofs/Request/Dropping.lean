import Mathlib.Order.BooleanAlgebra.Set
import ObjectStore.Proofs.Classes.Catalogue
import ObjectStore.Proofs.Classes.Tolerance
import ObjectStore.Proofs.Request.Prepare
import ObjectStore.Proofs.Request.Refusal
import ObjectStore.Request.Class

/-!
# What dropping a class leaves behind

A class is dropped in one transaction, which takes its table and its row of the metadata table, and
its join tables are dropped after that, each on its own. `Drops` is what becomes of the catalogue:
nothing, as long as that transaction is not kept, and afterwards the class has gone with as many of
its join tables as were dropped before a statement failed.

So dropping a class is all or nothing if and only if it succeeds or fails before that transaction is
kept (`deleteClass_allOrNothing_iff`). Where it fails later, the class has gone, some of its join
tables may be left, and the session still knows the class.
-/

namespace ObjectStore

/-- A catalogue without the table and the row of a class. -/
def Catalogue.withoutClass (c : Catalogue) (className : String) : Catalogue :=
  Statement.done (Statement.done c (.table (.dropTable className))) (.metadata (.forget className))

/-- A catalogue without some join tables. -/
def Catalogue.withoutJoinTables (c : Catalogue) (tables : List JoinTable) : Catalogue :=
  { c with tables := c.tables \ {name | ∃ table ∈ tables, table.name = name} }

/-- There is nothing left of a class. -/
structure Catalogue.Lacks (c : Catalogue) (className : String) (joinTables : List JoinTable) :
    Prop where
  table : className ∉ c.tables
  row : c.documents className = none
  joinTables : ∀ table ∈ joinTables, table.name ∉ c.tables

/-- Without no join tables a catalogue is what it is. -/
@[simp] theorem Catalogue.withoutJoinTables_nil (c : Catalogue) : c.withoutJoinTables [] = c := by
  have hnone : {name | ∃ table ∈ ([] : List JoinTable), table.name = name} = ∅ := by simp
  rw [withoutJoinTables, hnone, Set.sdiff_empty]

/-- Join tables are taken away one after another. -/
theorem Catalogue.withoutJoinTables_cons (c : Catalogue) (table : JoinTable)
    (tables : List JoinTable) :
    ({ c with tables := c.tables \ {table.name} } : Catalogue).withoutJoinTables tables
      = c.withoutJoinTables (table :: tables) := by
  simp only [withoutJoinTables, Catalogue.mk.injEq, and_true]
  ext name
  simp [and_assoc, eq_comm]

namespace Classes

open Work

/-- Sending a statement adds it to the journal, with an outcome like the result. -/
theorem leaves_send (statement : Statement) : Leaves (fun result events =>
      ∃ outcome, events = [.sent statement outcome] ∧ outcome.succeeded = result.isOk)
    (do let _ ← Work.execute statement) := by
  have hsent : Leaves (fun (result : Result Nat) events =>
      ∃ outcome, events = [.sent statement outcome] ∧ outcome.succeeded = result.isOk)
      (Work.execute statement) :=
    leaves_execute (fun _ => ⟨_, rfl, rfl⟩) fun _ => ⟨_, rfl, rfl⟩
  refine leaves_bind hsent (fun _ events ⟨outcome, hevents, hok⟩ => leaves_pure ?_)
    fun _ events h => h
  exact ⟨outcome, by rw [hevents, List.append_nil], hok⟩

end Classes

namespace Work

variable {α β : Type} {w body : Work α} {f : α → Work β}

/-! ## The loaded classes -/

/-- Work leaves the loaded classes alone. -/
def SparesLoaded (w : Work α) : Prop := ∀ s, (w.run s).2.classes = s.classes

/-- Work leaves the loaded classes alone if it fails. -/
def LoadsIfOk (w : Work α) : Prop :=
  ∀ s, (w.run s).1.isOk = false → (w.run s).2.classes = s.classes

/-- Work that leaves the loaded classes alone does so if it fails. -/
theorem SparesLoaded.loadsIfOk (h : SparesLoaded w) : LoadsIfOk w := fun s _ => h s

/-- Work leaves the loaded classes alone if both its parts do. -/
theorem sparesLoaded_bind (h : SparesLoaded w) (hf : ∀ a, SparesLoaded (f a)) :
    SparesLoaded (w >>= f) := by
  intro s
  have hw := h s
  rw [run_bind]
  rcases hrun : w.run s with ⟨_ | a, s'⟩ <;> rw [hrun] at hw
  · exact hw
  · exact (hf a s').trans hw

/-- Work leaves the loaded classes alone if it does and what is done in place of its failure does.
-/
theorem sparesLoaded_recover {handle : Error → Work α} (h : SparesLoaded body)
    (hhandle : ∀ e, SparesLoaded (handle e)) : SparesLoaded (body.recover handle) := by
  intro s
  have hbody := h s
  rw [run_recover]
  rcases hrun : body.run s with ⟨e | a, s'⟩ <;> rw [hrun] at hbody
  · exact (hhandle e s').trans hbody
  · exact hbody

/-- A result has nothing to do with the loaded classes. -/
theorem sparesLoaded_ofResult (result : Result α) : SparesLoaded (ofResult result) := by
  intro s
  cases result with
  | ok a => rfl
  | error e => rfl

/-- Another result in the place of a missing table changes nothing of the loaded classes. -/
theorem sparesLoaded_orIfUndefined {otherwise : α} (h : SparesLoaded body) :
    SparesLoaded (body.orIfUndefined otherwise) := by
  refine sparesLoaded_recover h ?_
  intro e s
  split
  · rfl
  · rfl

/-- A transaction does with the loaded classes what its body does. -/
theorem sparesLoaded_transaction (h : SparesLoaded body) : SparesLoaded body.transaction := by
  intro s
  rw [run_transaction]
  exact h s.enter

/-- A loop leaves the loaded classes alone if what it does for each item does. -/
theorem sparesLoaded_forM {items : List α} {g : α → Work PUnit}
    (h : ∀ item, SparesLoaded (g item)) : SparesLoaded (items.forM g) := by
  induction items with
  | nil => exact fun _ => rfl
  | cons item rest ih => exact sparesLoaded_bind (h item) fun _ => ih

/-- Where only the second part may load classes, a failure of either part leaves them alone. -/
theorem loadsIfOk_bind (h : SparesLoaded w) (hf : ∀ a, LoadsIfOk (f a)) :
    LoadsIfOk (w >>= f) := by
  intro s
  have hw := h s
  rw [run_bind]
  rcases hrun : w.run s with ⟨_ | a, s'⟩ <;> rw [hrun] at hw
  · exact fun _ => hw
  · exact fun hfail => (hf a s' hfail).trans hw

/-- Nothing that succeeds anyway stands between a failure and the loaded classes. -/
theorem loadsIfOk_bind_of_isQuiet (h : LoadsIfOk w) (hf : ∀ a, IsQuiet (f a)) :
    LoadsIfOk (w >>= f) := by
  intro s
  have hw := h s
  rw [run_bind]
  rcases hrun : w.run s with ⟨_ | a, s'⟩ <;> rw [hrun] at hw
  · exact hw
  · obtain ⟨b, s'', hquiet, -⟩ := hf a s'
    have hb : (f a).run s' = (.ok b, s'') := hquiet
    simp only [hb]
    exact nofun

end Work

namespace Request

open Work

/-- What dropping a class makes of a catalogue. -/
inductive Drops (className : String) (joinTables : List JoinTable) : Bool → List Event → Prop
  | nothing {events : List Event} :
    (∀ depth, .kept depth ∉ events) →
    (∀ c, (⟨c, []⟩ : Replay).after events = ⟨c, []⟩) →
      Drops className joinTables false events
  | dropped {succeeded : Bool} {events : List Event} {depth : Nat} {gone left : List JoinTable} :
    .kept depth ∈ events → joinTables = gone ++ left → (succeeded → left = []) →
    (∀ c, (⟨c, []⟩ : Replay).after events
      = ⟨(c.withoutClass className).withoutJoinTables gone, []⟩) →
      Drops className joinTables succeeded events

variable {className : String} {joinTables : List JoinTable} {succeeded : Bool}
  {events reads later : List Event} {depth : Nat}

/-- Reads keep no transaction. -/
theorem not_kept_mem_reads (h : Event.Reads depth reads) (depth' : Nat) : .kept depth' ∉ reads :=
  fun hmem => h _ hmem

/-- Reads alone drop nothing. -/
theorem Drops.of_reads (h : Event.Reads depth reads) : Drops className joinTables false reads :=
  .nothing (not_kept_mem_reads h) (Replay.after_reads h)

/-- Reads before it change nothing of what was dropped. -/
theorem Drops.reads_append (hreads : Event.Reads depth reads)
    (h : Drops className joinTables succeeded events) :
    Drops className joinTables succeeded (reads ++ events) := by
  cases h with
  | nothing hkept hafter =>
    refine .nothing ?_ ?_
    · intro depth' hmem
      rcases List.mem_append.mp hmem with hmem | hmem
      · exact not_kept_mem_reads hreads depth' hmem
      · exact hkept depth' hmem
    · intro c
      rw [Replay.after_append, Replay.after_reads hreads, hafter]
  | dropped hkept hjoin hleft hafter =>
    refine .dropped (List.mem_append_right _ hkept) hjoin hleft ?_
    intro c
    rw [Replay.after_append, Replay.after_reads hreads, hafter]

/-- A failure before any join table is dropped is one whichever join tables there are. -/
theorem Drops.of_nil (h : Drops className [] false events) :
    Drops className joinTables false events := by
  cases h with
  | nothing hkept hafter => exact .nothing hkept hafter
  | dropped hkept hnone _ hafter =>
    obtain ⟨rfl, -⟩ := List.append_eq_nil_iff.mp hnone.symm
    exact .dropped hkept (List.nil_append joinTables).symm nofun hafter

/-- A transaction of a few statements that is undone changes nothing. -/
theorem Drops.undone (depth : Nat) (hbody : Event.Body (depth + 1) events)
    (hkept : ∀ depth', .kept depth' ∉ events) :
    Drops className joinTables false (.began depth :: events ++ [.closing depth false]) := by
  refine .nothing ?_ ?_
  · intro depth'
    simpa [Event.closing] using hkept depth'
  · intro c
    exact (Journal.Transacted.opened (List.forall_mem_nil _) hbody).after_eq c

/-! ## The steps -/

/-- The table and the row of a class are dropped together or not at all. -/
theorem leaves_delete (className : String) :
    Leaves (fun result events => Drops className [] result.isOk events)
      (Classes.delete className) := by
  have hbody : Leaves (fun result events => ∀ depth, Drops className [] result.isOk
      (.began depth :: events ++ [.closing depth result.isOk])) (do
        Classes.dropTable className
        Classes.changeMetadata (.forget className)) := by
    refine leaves_bind (Classes.leaves_send (.table (.dropTable className))) ?_ ?_
    · rintro _ _ ⟨drop, rfl, hdrop⟩
      refine (Classes.leaves_send (.metadata (.forget className))).mono ?_
      rintro result _ ⟨forget, rfl, hforget⟩ depth
      -- the second statement decides whether the transaction is kept
      cases hok : result.isOk with
      | true =>
        refine .dropped (.tail _ (.tail _ (.tail _ (.head _)))) (List.append_nil []).symm
          (fun _ => rfl) ?_
        intro c
        rw [Catalogue.withoutJoinTables_nil]
        simp only [List.cons_append, List.nil_append, Replay.after_cons,
          Replay.next_succeeded hdrop, Replay.next_succeeded (hforget.trans hok)]
        rfl
      | false =>
        exact .undone depth (.sent _ _ (.sent _ _ .nil)) (by simp)
    · rintro e _ ⟨drop, rfl, -⟩ depth
      exact .undone depth (.sent _ _ .nil) (by simp)
  refine leaves_bind (leaves_transaction hbody) (fun _ events h => leaves_notify ?_) fun _ _ h => h
  rwa [List.append_nil]

/-- Join tables are dropped one after another, up to the first that cannot be. -/
theorem leaves_dropTables (tables : List JoinTable) : Leaves (fun result events =>
      (∀ depth, .kept depth ∉ events) ∧ ∃ gone left, tables = gone ++ left ∧
        (result.isOk → left = []) ∧
        ∀ c, (⟨c, []⟩ : Replay).after events = ⟨c.withoutJoinTables gone, []⟩)
      (tables.forM fun table => Classes.dropTable table.name) := by
  induction tables with
  | nil =>
    refine leaves_pure ⟨fun _ => List.not_mem_nil, [], [], rfl, fun _ => rfl, ?_⟩
    intro c
    rw [Catalogue.withoutJoinTables_nil, Replay.after_nil]
  | cons table rest ih =>
    refine leaves_bind (Classes.leaves_send (.table (.dropTable table.name))) ?_ ?_
    · rintro _ _ ⟨drop, rfl, hdrop⟩
      refine ih.mono ?_
      rintro result events ⟨hkept, gone, left, rfl, hleft, hafter⟩
      refine ⟨?_, table :: gone, left, rfl, hleft, ?_⟩
      · intro depth
        simpa using hkept depth
      · intro c
        rw [List.singleton_append, Replay.after_cons, Replay.next_succeeded hdrop, Statement.done,
          TableStatement.done_dropJoinTable, hafter, Catalogue.withoutJoinTables_cons]
    · rintro e _ ⟨drop, rfl, hdrop⟩
      refine ⟨by simp, [], table :: rest, rfl, nofun, ?_⟩
      intro c
      rw [Replay.after_cons, Replay.next_failed hdrop, Catalogue.withoutJoinTables_nil]
      rfl

/-- Counting the objects of a class only reads. -/
theorem reads_count (settings : Settings) (className : String) (schema : Schema) (query : Object)
    (mayEstimate : Bool) :
    Keeps Event.Reads (Objects.count settings className schema query mayEstimate) := by
  have hfilter : Keeps Event.Reads (Objects.filterOf schema query false) :=
    keeps_bind Event.grammar_reads (fun _ => .refl Event.grammar_reads rfl rfl)
      fun _ => keeps_ofResult Event.grammar_reads _
  have hexact : ∀ filter, Keeps Event.Reads (Objects.countExactly className filter) :=
    fun _ => keeps_bind Event.grammar_reads
      (keeps_orIfUndefined Event.grammar_reads (reads_query nofun))
      fun _ => keeps_ofResult Event.grammar_reads _
  refine keeps_bind Event.grammar_reads hfilter ?_
  intro filter
  split
  · refine keeps_bind Event.grammar_reads ?_ ?_
    · exact keeps_bind Event.grammar_reads (reads_query nofun)
        fun _ => keeps_pure Event.grammar_reads _
    · intro known
      cases known with
      | some n => exact keeps_pure Event.grammar_reads n
      | none => exact hexact filter
  · exact hexact filter

/-- Loading the classes again only reads. -/
theorem reads_reload (source : Classes.ClassSource) :
    Keeps Event.Reads (Classes.reload source) := by
  cases source with
  | given => exact keeps_pure Event.grammar_reads _
  | recorded =>
    have hread : Keeps Event.Reads Classes.allRecorded :=
      keeps_bind Event.grammar_reads
        (keeps_orIfUndefined Event.grammar_reads (reads_query nofun))
        fun _ => keeps_ofResult Event.grammar_reads _
    exact keeps_bind Event.grammar_reads hread fun _ => fun _ => .refl Event.grammar_reads rfl rfl

/-- Once the class has gone, its join tables go, and the classes are read again. -/
theorem leaves_afterDelete (store : Store) (schema : Schema) (notice : Notice)
    (h : Drops className [] true events) : Leaves (fun result later =>
      Drops className schema.joinTables result.isOk (events ++ later)) (do
      Classes.dropJoinTables schema
      Classes.reload store.source
      notify notice) := by
  obtain _ | ⟨hkept, hnone, -, hafter⟩ := h
  obtain ⟨rfl, -⟩ := List.append_eq_nil_iff.mp hnone.symm
  have hdropped : ∀ {succeeded : Bool} {gone left : List JoinTable} {later : List Event},
      schema.joinTables = gone ++ left → (succeeded → left = []) →
      (∀ c, (⟨c, []⟩ : Replay).after later = ⟨c.withoutJoinTables gone, []⟩) →
      Drops className schema.joinTables succeeded (events ++ later) := by
    intro succeeded gone left later hjoin hleft hlater
    refine .dropped (List.mem_append_left _ hkept) hjoin hleft ?_
    intro c
    rw [Replay.after_append, hafter, Catalogue.withoutJoinTables_nil, hlater]
  refine leaves_bind (leaves_dropTables schema.joinTables) ?_ ?_
  · rintro _ later ⟨-, gone, left, hjoin, hleft, hlater⟩
    obtain rfl := hleft rfl
    have hgone : Drops className schema.joinTables true (events ++ later) :=
      hdropped hjoin (fun _ => rfl) hlater
    have hreload : Leaves (fun result reads => Drops className schema.joinTables result.isOk
        (events ++ (later ++ reads))) (Classes.reload store.source) := by
      refine (leaves_of_keeps (reads_reload store.source)).mono ?_
      rintro result reads ⟨_, hreads⟩
      refine hdropped hjoin (fun _ => rfl) ?_
      intro c
      rw [Replay.after_append, hlater, Replay.after_reads hreads]
    refine leaves_bind hreload (fun _ reads h => leaves_notify ?_) fun _ reads h => h
    rwa [List.append_nil]
  · rintro e later ⟨-, gone, left, hjoin, hleft, hlater⟩
    exact hdropped hjoin nofun hlater

/-- Dropping a class in which no objects were counted drops it as a whole, or stops on the way. -/
theorem leaves_dropClass (store : Store) (className : String) (schema : Schema) : Leaves
    (fun result events => Drops className schema.joinTables result.isOk events) (do
      Classes.delete className
      Classes.dropJoinTables schema
      Classes.reload store.source
      notify (.droppedClass className)) := by
  refine leaves_bind (leaves_delete className) ?_ ?_
  · intro _ events h
    exact leaves_afterDelete store schema _ h
  · intro e events h
    exact h.of_nil

/-- Dropping a class leaves it as it was or drops it. -/
theorem leavesFrom_deleteClass (store : Store) (className : String) (s : Session) :
    LeavesFrom s
      (fun result events => Drops className (s.schemaOf className).joinTables result.isOk events)
      (deleteClass store className) := by
  have hloaded : LeavesFrom s (fun _ events => events = []) (Classes.loaded? className) :=
    ⟨[], (List.append_nil _).symm, rfl⟩
  refine leavesFrom_bind hloaded ?_ ?_
  · rintro a s' _ hrun rfl
    obtain ⟨hget, rfl⟩ := Prod.mk.inj ((run_loaded? className s).symm.trans hrun)
    obtain rfl := Except.ok.inj hget
    refine leaves_bind (leaves_of_keeps (reads_count _ _ _ _ _)) ?_ ?_ s
    · rintro count reads ⟨_, hreads⟩
      dsimp only
      -- a class that has objects is refused after they were counted
      split
      · refine leaves_throw ?_
        rw [List.append_nil]
        exact .of_reads hreads
      · refine (leaves_dropClass store className (s.schemaOf className)).mono ?_
        intro result later h
        show Drops _ _ result.isOk (reads ++ later)
        exact h.reads_append hreads
    · rintro e reads ⟨_, hreads⟩
      exact .of_reads hreads
  · rintro e _ rfl
    exact .nothing (fun _ => List.not_mem_nil) fun _ => rfl

/-! ## What the session knows -/

/-- Counting objects leaves the loaded classes alone. -/
theorem sparesLoaded_count (settings : Settings) (className : String) (schema : Schema)
    (query : Object) (mayEstimate : Bool) :
    SparesLoaded (Objects.count settings className schema query mayEstimate) := by
  have hexact : ∀ filter, SparesLoaded (Objects.countExactly className filter) := by
    intro filter
    refine sparesLoaded_bind (sparesLoaded_orIfUndefined fun _ => rfl) ?_
    intro rows
    exact sparesLoaded_ofResult _
  refine sparesLoaded_bind (sparesLoaded_bind (fun _ => rfl) fun _ => sparesLoaded_ofResult _) ?_
  intro filter
  split
  · refine sparesLoaded_bind (sparesLoaded_bind (fun _ => rfl) fun _ _ => rfl) ?_
    intro known
    cases known with
    | some _ => exact fun _ => rfl
    | none => exact hexact filter
  · exact hexact filter

/-- The classes are read again as the last thing that can fail. -/
theorem loadsIfOk_deleteClass (store : Store) (className : String) :
    LoadsIfOk (deleteClass store className) := by
  have hdrop : ∀ table, SparesLoaded (Classes.dropTable table) :=
    fun _ => sparesLoaded_bind (fun _ => rfl) fun _ _ => rfl
  have hdelete : SparesLoaded (Classes.delete className) := by
    refine sparesLoaded_bind (sparesLoaded_transaction ?_) fun _ _ => rfl
    refine sparesLoaded_bind (hdrop _) fun _ => ?_
    exact sparesLoaded_bind (fun _ => rfl) fun _ _ => rfl
  have hreload : LoadsIfOk (Classes.reload store.source) := by
    cases store.source with
    | given => exact fun _ _ => rfl
    | recorded =>
      have hread : SparesLoaded Classes.allRecorded :=
        sparesLoaded_bind (sparesLoaded_orIfUndefined fun _ => rfl) fun _ => sparesLoaded_ofResult _
      exact loadsIfOk_bind_of_isQuiet hread.loadsIfOk fun _ _ => ⟨_, _, rfl, rfl⟩
  refine loadsIfOk_bind (fun _ => rfl) ?_
  intro loaded
  refine loadsIfOk_bind (sparesLoaded_count _ _ _ _ _) ?_
  intro count
  dsimp only
  split
  · exact fun _ _ => rfl
  · refine loadsIfOk_bind hdelete fun _ => ?_
    refine loadsIfOk_bind (sparesLoaded_forM fun table => hdrop table.name) fun _ => ?_
    exact loadsIfOk_bind_of_isQuiet hreload fun _ => isQuiet_notify _

/-! ## The whole -/

/-- Dropping a class is all or nothing: it succeeds, and nothing is left of the class, or it fails,
and the catalogue and the loaded classes are what they were. -/
def AllOrNothing (className : String) (joinTables : List JoinTable) (c final : Catalogue)
    (s : Session) (ended : Result Unit × Session) : Prop :=
  ended.1.isOk = true ∧ final.Lacks className joinTables ∨
    ended.1.isOk = false ∧ final = c ∧ ended.2.classes = s.classes

/-- The table of a class that was dropped is not there. -/
theorem Catalogue.not_mem_withoutClass (c : Catalogue) (className : String)
    (tables : List JoinTable) :
    className ∉ ((c.withoutClass className).withoutJoinTables tables).tables :=
  fun h => h.1.2 rfl

/-- A class has gone once it was dropped with all of its join tables. -/
theorem lacks_withoutClass (c : Catalogue) (className : String) (tables : List JoinTable) :
    ((c.withoutClass className).withoutJoinTables tables).Lacks className tables where
  table := Catalogue.not_mem_withoutClass c className tables
  row := Function.update_self ..
  joinTables table hmem h := h.2 ⟨table, hmem, rfl⟩

/-- Whatever the engine answers, dropping a class that has a table is all or nothing if and only if
it succeeds or fails before its transaction is kept. Whenever it fails, the session still knows the
class as before; and once the transaction is kept, the class has gone with the first of its join
tables, with all of them if dropping it succeeded. -/
theorem deleteClass_allOrNothing_iff (store : Store) (className : String) (s : Session)
    (c : Catalogue) (htable : className ∈ c.tables) :
    let joinTables := (s.schemaOf className).joinTables
    let ended := (deleteClass store className).run s
    ∃ events final, ended.2.journal = s.journal ++ events ∧
      (⟨c, []⟩ : Replay).after events = ⟨final, []⟩ ∧
      (AllOrNothing className joinTables c final s ended ↔
        ended.1.isOk = true ∨ ∀ depth, .kept depth ∉ events) ∧
      (ended.1.isOk = false → ended.2.classes = s.classes) ∧
      ∀ depth, .kept depth ∈ events → ∃ gone left, joinTables = gone ++ left ∧
        (ended.1.isOk → left = []) ∧
        final = (c.withoutClass className).withoutJoinTables gone := by
  intro joinTables ended
  obtain ⟨events, hjournal, hdrops⟩ := leavesFrom_deleteClass store className s
  have hloaded : ended.1.isOk = false → ended.2.classes = s.classes :=
    loadsIfOk_deleteClass store className s
  change Drops className joinTables ended.1.isOk events at hdrops
  generalize hok : ended.1.isOk = succeeded at hdrops hloaded
  cases hdrops with
  | nothing hkept hafter =>
    refine ⟨events, c, hjournal, hafter c, ?_, hloaded, fun depth h => absurd h (hkept depth)⟩
    simp [AllOrNothing, hok, hkept, hloaded rfl]
  | @dropped _ _ depth gone left hkept hjoin hleft hafter =>
    refine ⟨events, _, hjournal, hafter c, ?_, hloaded, fun _ _ => ⟨gone, left, hjoin, hleft, rfl⟩⟩
    -- the table of the class was there, so something has changed
    have hne : (c.withoutClass className).withoutJoinTables gone ≠ c := by
      intro heq
      apply Catalogue.not_mem_withoutClass c className gone
      rwa [heq]
    cases succeeded with
    | true =>
      obtain rfl := hleft rfl
      rw [List.append_nil] at hjoin
      simp [AllOrNothing, hok, hjoin, lacks_withoutClass]
    | false => simpa [AllOrNothing, hok, hne] using ⟨depth, hkept⟩

/-- A session that knows a class with two relations, and an engine that has answers to the
statements that change something. -/
def knowsTeam (changeAnswers : List (Result Nat)) : Session :=
  { Classes.scripted [] changeAnswers with
    classes := [("Team",
      ((Schema.ofClass "Team").withField "fans" (.relation Access.userClass)).withField
        "members" (.relation Access.userClass))] }

/-- The catalogue of a class with two relations. -/
def teamCatalogue : Catalogue where
  tables := {"Team", "_Join:fans:Team", "_Join:members:Team"}
  documents className := if className = "Team" then some none else none

/-- A class is dropped with its join tables. -/
theorem deleteTeam_allOrNothing :
    let ended := (deleteClass ⟨{}, .given⟩ "Team").run (knowsTeam [])
    "Team" ∈ teamCatalogue.tables ∧ ended.1.isOk = true ∧
      ∃ events final, ended.2.journal = (knowsTeam []).journal ++ events ∧
        (⟨teamCatalogue, []⟩ : Replay).after events = ⟨final, []⟩ ∧
        final.Lacks "Team" [⟨"Team", "fans"⟩, ⟨"Team", "members"⟩] := by
  intro ended
  have htable : "Team" ∈ teamCatalogue.tables := .inl rfl
  have hok : ended.1.isOk = true := rfl
  obtain ⟨events, final, hjournal, hafter, hiff, -⟩ :=
    deleteClass_allOrNothing_iff ⟨{}, .given⟩ "Team" (knowsTeam []) teamCatalogue htable
  obtain ⟨-, hlacks⟩ | ⟨hfailed, -⟩ := hiff.mpr (.inl hok)
  · exact ⟨htable, hok, events, final, hjournal, hafter, hlacks⟩
  · exact nomatch hfailed

/-- A class has gone although dropping it failed at its second join table, which is left. -/
theorem deleteTeam_leaves_joinTable :
    let s := knowsTeam [.ok 0, .ok 1, .ok 0, .error (.storage "connection closed" none)]
    let ended := (deleteClass ⟨{}, .given⟩ "Team").run s
    ∃ final, (⟨teamCatalogue, []⟩ : Replay).after ended.2.journal = ⟨final, []⟩ ∧
      ended.1.isOk = false ∧ "Team" ∉ final.tables ∧ final.documents "Team" = none ∧
      "_Join:fans:Team" ∉ final.tables ∧ "_Join:members:Team" ∈ final.tables ∧
      ended.2.classes.contains "Team" ∧ ¬ AllOrNothing "Team"
        [⟨"Team", "fans"⟩, ⟨"Team", "members"⟩] teamCatalogue final s ended := by
  refine ⟨_, rfl, rfl, fun h => h.1.2 rfl, rfl, fun h => h.2 rfl, ?_, rfl, ?_⟩
  · exact ⟨⟨.inr (.inr rfl), by decide⟩, by decide⟩
  · rintro (⟨hok, -⟩ | ⟨-, hsame, -⟩)
    · exact nomatch hok
    · have htable : "Team" ∈ teamCatalogue.tables := .inl rfl
      rw [← hsame] at htable
      exact htable.1.2 rfl

end Request

end ObjectStore
