import ObjectStore.Proofs.Engine.Sending

/-!
# What happens in transactions

The events of a journal tell where a transaction was opened and how it was left. `Event.Body` is the
grammar of what work inside a transaction adds to it: statements, and savepoints that hold one
statement each and are released if it succeeds and rolled back if it fails. So no savepoint stays
open, and none is left twice.

`Work.Keeps` says that work keeps to a grammar of events, whatever the engine answers; its rules
follow the constructors of work. `Work.Transacts` says that an operation as a whole opens one
transaction, with nothing but reads before it, and leaves it the way the operation itself ends.
-/

namespace ObjectStore

variable {α β : Type}

/-! ## Events of a transaction -/

/-- How a transaction at a depth is left by what succeeded in it or failed. -/
def Event.closing (depth : Nat) (succeeded : Bool) : Event :=
  if succeeded then .kept depth else .undone depth

/-- Whether a statement went well. -/
def Outcome.succeeded : Outcome → Bool
  | .rows _ | .affected _ => true
  | .failed _ => false

/-- Whether a statement defines something or changes what is recorded of the classes. -/
def Statement.ChangesClasses : Statement → Prop
  | .table _ => True
  | .metadata (.record _) | .metadata (.replace _) | .metadata (.setPart ..)
  | .metadata (.recordField ..) | .metadata (.setField ..) | .metadata (.forget _)
  | .metadata .forgetAll => True
  | .metadata _ | .rows _ | .insert .. | .aggregate .. | .relation _ => False

namespace Event

/-- Whether an event is a statement that changes no classes. -/
def IsRead : Event → Prop
  | .sent statement _ => ¬ statement.ChangesClasses
  | .began _ | .kept _ | .undone _ => False

/-- What work in a transaction adds to a journal: statements, and savepoints around one statement
each, which decides how the savepoint is left. -/
inductive Body (depth : Nat) : List Event → Prop
  | nil : Body depth []
  | sent (statement : Statement) (outcome : Outcome) {rest : List Event} :
    Body depth rest → Body depth (.sent statement outcome :: rest)
  | savepoint (statement : Statement) (outcome : Outcome) {rest : List Event} :
    Body depth rest →
      Body depth (.began depth :: .sent statement outcome
        :: .closing depth outcome.succeeded :: rest)

/-- What is added in a row is what may be added. -/
theorem Body.append {depth : Nat} {events later : List Event} (h : Body depth events)
    (h' : Body depth later) : Body depth (events ++ later) := by
  induction h with
  | nil => exact h'
  | sent statement outcome _ ih => exact .sent statement outcome ih
  | savepoint statement outcome _ ih => exact .savepoint statement outcome ih

end Event

/-- What nothing and one thing after another keep to. -/
structure Event.Grammar (P : Nat → List Event → Prop) : Prop where
  nil : ∀ depth, P depth []
  append : ∀ {depth events later}, P depth events → P depth later → P depth (events ++ later)

theorem Event.grammar_body : Grammar Body := ⟨fun _ => .nil, Body.append⟩

/-- Events that are all reads. -/
def Event.Reads (_ : Nat) (events : List Event) : Prop := ∀ event ∈ events, event.IsRead

/-- Reads in a row are reads. -/
theorem Event.grammar_reads : Grammar Reads :=
  ⟨fun _ => List.forall_mem_nil _, fun h h' => List.forall_mem_append.mpr ⟨h, h'⟩⟩

open Event (Body Grammar grammar_body grammar_reads)

/-- What an operation adds to a journal: reads, and then one transaction that is kept if the
operation succeeds and undone if it fails; or reads alone, if it fails before it opens the
transaction. -/
inductive Journal.Transacted (depth : Nat) : Bool → List Event → Prop
  | unopened {reads : List Event} :
    Event.Reads depth reads → Transacted depth false reads
  | opened {succeeded : Bool} {reads body : List Event} :
    Event.Reads depth reads → Body (depth + 1) body → Transacted depth succeeded
      (reads ++ .began depth :: body ++ [.closing depth succeeded])

open Journal (Transacted)

namespace Work

/-- Work adds events to the journal of a session and leaves the session as deep as it was. -/
structure Adds (P : Nat → List Event → Prop) (s s' : Session) : Prop where
  depth : s'.depth = s.depth
  journal : ∃ events, s'.journal = s.journal ++ events ∧ P s.depth events

/-- Work keeps to a grammar of events, wherever it starts. -/
def Keeps (P : Nat → List Event → Prop) (w : Work α) : Prop := ∀ s, Adds P s (w.run s).2

/-- Work succeeds and sends nothing. -/
def IsQuiet (w : Work α) : Prop := ∀ s, ∃ a s', w.run s = (.ok a, s') ∧ s'.journal = s.journal

/-- Work opens one transaction, after reads at most, and leaves it the way the work ends. -/
def Transacts (w : Work α) : Prop :=
  ∀ s, ∃ events, (w.run s).2.journal = s.journal ++ events
    ∧ Transacted s.depth (w.run s).1.isOk events

variable {P : Nat → List Event → Prop} {w : Work α} {f : α → Work β}

/-! ## Work that keeps to a grammar -/

/-- A session with the same depth and journal has had nothing added. -/
theorem Adds.refl (hP : Grammar P) {s s' : Session} (hdepth : s'.depth = s.depth)
    (hjournal : s'.journal = s.journal) : Adds P s s' :=
  ⟨hdepth, [], by rw [hjournal, List.append_nil], hP.nil _⟩

/-- What is added after what was added is added. -/
theorem Adds.trans (hP : Grammar P) {s s' s'' : Session} (h : Adds P s s') (h' : Adds P s' s'') :
    Adds P s s'' := by
  obtain ⟨events, hjournal, hevents⟩ := h.journal
  obtain ⟨later, hjournal', hlater⟩ := h'.journal
  -- the later events were added at the same depth
  rw [h.depth] at hlater
  refine ⟨h'.depth.trans h.depth, events ++ later, ?_, hP.append hevents hlater⟩
  rw [hjournal', hjournal, List.append_assoc]

/-- Doing nothing keeps to every grammar. -/
theorem keeps_pure (hP : Grammar P) (a : α) : Keeps P (pure a : Work α) :=
  fun _ => .refl hP rfl rfl

theorem keeps_throw (hP : Grammar P) (e : Error) : Keeps P (throw e : Work α) :=
  fun _ => .refl hP rfl rfl

theorem keeps_notify (hP : Grammar P) (notice : Notice) : Keeps P (notify notice) :=
  fun _ => .refl hP rfl rfl

/-- A result that is known keeps to every grammar. -/
theorem keeps_ofResult (hP : Grammar P) (result : Result α) : Keeps P (ofResult result) := by
  cases result with
  | ok a => exact keeps_pure hP a
  | error e => exact keeps_throw hP e

/-- Work in a row keeps to what its parts keep to. -/
theorem keeps_bind (hP : Grammar P) (h : Keeps P w) (hf : ∀ a, Keeps P (f a)) :
    Keeps P (w >>= f) := by
  intro s
  have hw := h s
  rw [run_bind]
  rcases hrun : w.run s with ⟨e | a, s'⟩
  · rw [hrun] at hw
    exact hw
  · rw [hrun] at hw
    exact hw.trans hP (hf a s')

/-- What is done in place of a failure keeps to the grammar too. -/
theorem keeps_recover (hP : Grammar P) {body : Work α} {handle : Error → Work α}
    (h : Keeps P body) (hhandle : ∀ e, Keeps P (handle e)) : Keeps P (body.recover handle) := by
  intro s
  have hbody := h s
  rw [run_recover]
  rcases hb : body.run s with ⟨e | a, s'⟩
  · rw [hb] at hbody
    exact hbody.trans hP (hhandle e s')
  · rw [hb] at hbody
    exact hbody

/-- Answering for a missing table adds nothing. -/
theorem keeps_orIfUndefined (hP : Grammar P) {body : Work α} {otherwise : α} (h : Keeps P body) :
    Keeps P (body.orIfUndefined otherwise) := by
  refine keeps_recover hP h ?_
  intro e
  split
  · exact keeps_pure hP _
  · exact keeps_throw hP _

/-- A loop keeps to what its steps keep to. -/
theorem keeps_forM (hP : Grammar P) {items : List α} {g : α → Work PUnit}
    (h : ∀ item, Keeps P (g item)) : Keeps P (items.forM g) := by
  induction items with
  | nil => exact keeps_pure hP _
  | cons item rest ih => exact keeps_bind hP (h item) fun _ => ih

/-- A query that changes no classes is a read. -/
theorem reads_query {statement : Statement} (h : ¬ statement.ChangesClasses) :
    Keeps Event.Reads (query statement) := fun _ =>
  ⟨rfl, [_], rfl, fun _ hevent => List.mem_singleton.mp hevent ▸ h⟩

/-! ## Inside a transaction -/

/-- A transaction is left the way its body ends. -/
theorem run_transaction (body : Work α) (s : Session) :
    body.transaction.run s = ((body.run s.enter).1,
      { (body.run s.enter).2 with depth := s.depth }.record
        (.closing s.depth (body.run s.enter).1.isOk)) := by
  unfold transaction ExceptT.run ExceptT.mk
  dsimp only
  rcases body s.enter with ⟨_ | _, _⟩ <;> rfl

/-- A query inside a transaction is one statement of it. -/
theorem nests_query (statement : Statement) : Keeps Body (query statement) :=
  fun _ => ⟨rfl, [_], rfl, .sent statement _ .nil⟩

/-- A statement succeeds as its outcome in the journal does. -/
theorem run_execute (statement : Statement) (s : Session) : ∃ outcome,
    ((execute statement).run s).2.journal = s.journal ++ [.sent statement outcome]
      ∧ ((execute statement).run s).1.isOk = outcome.succeeded := by
  have hrun : (execute statement).run s = Session.execute statement s := rfl
  rw [hrun, Session.execute]
  cases s.changeAnswers.headD (.ok 1) with
  | ok count => exact ⟨.affected count, rfl, rfl⟩
  | error e => exact ⟨.failed e, rfl, rfl⟩

/-- A statement without rows is one statement of the transaction around it. -/
theorem nests_execute (statement : Statement) : Keeps Body (execute statement) :=
  fun _ => ⟨rfl, [_], rfl, .sent statement _ .nil⟩

/-- A statement in a transaction of its own is a savepoint in the transaction around it. -/
theorem nests_transaction_execute (statement : Statement) :
    Keeps Body (execute statement).transaction := by
  intro s
  obtain ⟨outcome, hjournal, hok⟩ := run_execute statement s.enter
  rw [run_transaction]
  refine ⟨rfl, [.began s.depth, .sent statement outcome, .closing s.depth outcome.succeeded], ?_,
    .savepoint statement outcome .nil⟩
  rw [← hok]
  change ((execute statement).run s.enter).2.journal ++ _ = _
  rw [hjournal]
  simp [Session.enter, Session.record]

/-- A statement that may lose a race is a savepoint, whether or not the race is lost. -/
theorem nests_executeTolerant (statement : TableStatement) (tolerated : List SqlState) :
    Keeps Body (executeTolerant statement tolerated) := by
  refine keeps_recover grammar_body ?_ ?_
  · exact keeps_bind grammar_body (nests_transaction_execute _) fun _ => keeps_pure grammar_body _
  · intro e
    split
    · exact keeps_bind grammar_body (keeps_notify grammar_body _) fun _ => keeps_pure grammar_body _
    · exact keeps_throw grammar_body _

/-! ## Operations as a whole -/

theorem isQuiet_pure (a : α) : IsQuiet (pure a : Work α) := fun s => ⟨a, s, rfl, rfl⟩

/-- A notice is quiet. -/
theorem isQuiet_notify (notice : Notice) : IsQuiet (notify notice) := fun _ => ⟨_, _, rfl, rfl⟩

/-- Quiet work in a row is quiet. -/
theorem isQuiet_bind (h : IsQuiet w) (hf : ∀ a, IsQuiet (f a)) : IsQuiet (w >>= f) := by
  intro s
  obtain ⟨a, s', hw, hjournal⟩ := h s
  obtain ⟨b, s'', hf, hjournal'⟩ := hf a s'
  exact ⟨b, s'', by rw [run_bind, hw, ← hf], hjournal'.trans hjournal⟩

/-- Work in a transaction of its own opens it first and leaves it last. -/
theorem transacts_transaction {body : Work α} (h : Keeps Body body) :
    Transacts body.transaction := by
  intro s
  obtain ⟨_, events, hjournal, hevents⟩ := h s.enter
  rw [run_transaction]
  have hopened : Transacted s.depth (body.run s.enter).1.isOk
      ([] ++ .began s.depth :: events ++ [.closing s.depth (body.run s.enter).1.isOk]) :=
    .opened (List.forall_mem_nil _) hevents
  refine ⟨_, ?_, hopened⟩
  change (body.run s.enter).2.journal ++ _ = _
  rw [hjournal]
  simp [Session.enter, Session.record]

/-- Reads may come before the transaction, and may fail before it is opened. -/
theorem transacts_bind_of_reads (h : Keeps Event.Reads w) (hf : ∀ a, Transacts (f a)) :
    Transacts (w >>= f) := by
  intro s
  obtain ⟨hdepth, reads, hjournal, hreads⟩ := h s
  rw [run_bind]
  rcases hw : w.run s with ⟨e | a, s'⟩
  · rw [hw] at hjournal
    exact ⟨reads, hjournal, .unopened hreads⟩
  · rw [hw] at hdepth hjournal
    obtain ⟨events, hjournal', hevents⟩ := hf a s'
    refine ⟨reads ++ events, by rw [hjournal', hjournal, List.append_assoc], ?_⟩
    rw [hdepth] at hevents
    -- the reads stand before those of the operation, if it has any of its own
    change Transacted s.depth ((f a).run s').1.isOk (reads ++ events)
    generalize ((f a).run s').1.isOk = succeeded at hevents
    cases hevents with
    | unopened hmore => exact .unopened (grammar_reads.append hreads hmore)
    | @opened _ more body hmore hbody =>
      have hopened : Transacted s.depth succeeded _ :=
        .opened (grammar_reads.append hreads hmore) hbody
      simpa using hopened

/-- Quiet work may come after the transaction. -/
theorem transacts_bind_of_isQuiet (h : Transacts w) (hf : ∀ a, IsQuiet (f a)) :
    Transacts (w >>= f) := by
  intro s
  obtain ⟨events, hjournal, hevents⟩ := h s
  rw [run_bind]
  rcases hw : w.run s with ⟨e | a, s'⟩
  · rw [hw] at hjournal hevents
    exact ⟨events, hjournal, hevents⟩
  · rw [hw] at hjournal hevents
    obtain ⟨b, s'', hquiet, hsame⟩ := hf a s'
    have hrun : (f a).run s' = (.ok b, s'') := hquiet
    refine ⟨events, ?_, ?_⟩
    · simp only [hrun]
      exact hsame.trans hjournal
    · simp only [hrun]
      exact hevents

end Work

end ObjectStore
