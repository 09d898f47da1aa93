import ObjectStore.Proofs.Engine.Traces

/-!
# Failures that work goes on after

The engine aborts a transaction at the first statement that fails directly in it, and only a
savepoint keeps a failure from the transaction around it. What matters of a trace is therefore which
statements stand directly in a transaction: `Event.sentAt` lists them with their outcomes, and
`Work.Directly` relates them to the result of work.

A statement that is sent under a guard of its own adds nothing to that list, even if it fails. A
statement whose failure is passed over without one does: the list is then `Recovered`, if another
statement has to succeed right after it, and on an engine that aborts transactions such work fails.
-/

namespace ObjectStore

variable {α β : Type}

/-- Whether a statement failed because a table is missing. -/
def Outcome.isUndefinedTable : Outcome → Bool
  | .failed e => e.isUndefinedTable
  | .rows _ | .affected _ => false

namespace Event

/-- The statements that are sent where `target` transactions are open, no more and no fewer, if
`level` of them are open at first. -/
def sentAt (target : Nat) : Nat → List Event → List Sending
  | _, [] => []
  | level, .began _ :: rest => sentAt target (level + 1) rest
  | level, .kept _ :: rest | level, .undone _ :: rest => sentAt target (level - 1) rest
  | level, .sent statement outcome :: rest =>
    if level = target then (statement, outcome) :: sentAt target level rest
    else sentAt target level rest

/-- Where nothing happened, nothing was sent. -/
@[simp] theorem sentAt_nil (target level : Nat) : sentAt target level [] = [] := rfl

/-- The start of a transaction is one level deeper. -/
@[simp] theorem sentAt_began (target level depth : Nat) (rest : List Event) :
    sentAt target level (.began depth :: rest) = sentAt target (level + 1) rest := rfl

/-- The end of a transaction is one level up again. -/
@[simp] theorem sentAt_closing (target level depth : Nat) (succeeded : Bool) (rest : List Event) :
    sentAt target level (.closing depth succeeded :: rest) = sentAt target (level - 1) rest := by
  cases succeeded <;> rfl

/-- Reads outside of all transactions are not among what is sent in one. -/
theorem sentAt_reads {depth : Nat} {reads : List Event} (h : Reads depth reads)
    (rest : List Event) : sentAt 1 0 (reads ++ rest) = sentAt 1 0 rest := by
  induction reads with
  | nil => rfl
  | cons event reads ih =>
    have ⟨hevent, hreads⟩ := List.forall_mem_cons.mp h
    -- reads are statements at level 0, and open no transaction
    cases event with
    | sent statement outcome => exact ih hreads
    | began _ => exact hevent.elim
    | kept _ => exact hevent.elim
    | undone _ => exact hevent.elim

/-- Some statements are the ones among the events that stand in no transaction of the events' own;
the events leave open none of these. -/
def SendsDirectly (direct : List Sending) (events : List Event) : Prop :=
  ∀ level rest, sentAt level level (events ++ rest) = direct ++ sentAt level level rest

/-- Where nothing happened, nothing was sent directly. -/
theorem sendsDirectly_nil : SendsDirectly [] [] := fun _ _ => rfl

/-- A statement is sent directly where it stands. -/
theorem sendsDirectly_sent (statement : Statement) (outcome : Outcome) :
    SendsDirectly [(statement, outcome)] [.sent statement outcome] := by
  intro level rest
  simp [sentAt]

/-- What is sent directly by events in a row is what each part sends. -/
theorem SendsDirectly.append {direct later : List Sending} {events rest : List Event}
    (h : SendsDirectly direct events) (h' : SendsDirectly later rest) :
    SendsDirectly (direct ++ later) (events ++ rest) := by
  intro level more
  rw [List.append_assoc, h, h', List.append_assoc]

/-- A statement under a guard of its own does not stand in the transaction around the guard. -/
theorem sendsDirectly_guard (depth : Nat) (statement : Statement) (outcome : Outcome)
    (succeeded : Bool) : SendsDirectly []
      [.began depth, .sent statement outcome, .closing depth succeeded] := by
  intro level rest
  simp [sentAt]

/-- What stands directly in a transaction is what its body sends directly. -/
theorem SendsDirectly.sentAt_transaction {direct : List Sending} {events : List Event}
    (h : SendsDirectly direct events) (depth : Nat) (succeeded : Bool) :
    sentAt 1 0 (.began depth :: events ++ [.closing depth succeeded]) = direct := by
  rw [List.cons_append, sentAt_began, h 1, sentAt_closing, sentAt_nil, List.append_nil]

end Event

/-! ## Lists of statements with failures -/

/-- Every statement succeeded, except for some that another one follows, which did. -/
inductive Recovered (P : Sending → Prop) : List Sending → Prop
  | nil : Recovered P []
  | succeeded {sending : Sending} {rest : List Sending} :
    sending.2.succeeded → Recovered P rest → Recovered P (sending :: rest)
  | recovered {failed sending : Sending} {rest : List Sending} :
    P failed → sending.2.succeeded → Recovered P rest → Recovered P (failed :: sending :: rest)

/-- After a statement that failed no other succeeds, as it is with those that stand directly in one
transaction of an engine that aborts transactions. -/
def Aborts (direct : List Sending) : Prop :=
  direct.Pairwise fun earlier later =>
    earlier.2.succeeded = false → later.2.succeeded = false

namespace Recovered

variable {P : Sending → Prop} {direct later : List Sending}

/-- Two lists in a row recover if each of them does. -/
theorem append (h : Recovered P direct) (h' : Recovered P later) :
    Recovered P (direct ++ later) := by
  induction h with
  | nil => exact h'
  | succeeded hsent _ ih => exact .succeeded hsent ih
  | recovered hp hsent _ ih => exact .recovered hp hsent ih

/-- What was sent and recovered from is all that failed. -/
theorem succeeded_or (h : Recovered P direct) :
    ∀ sending ∈ direct, sending.2.succeeded ∨ P sending := by
  induction h with
  | nil => exact List.forall_mem_nil _
  | succeeded hsent _ ih => exact List.forall_mem_cons.mpr ⟨.inl hsent, ih⟩
  | recovered hp hsent _ ih =>
    exact List.forall_mem_cons.mpr ⟨.inr hp, List.forall_mem_cons.mpr ⟨.inl hsent, ih⟩⟩

/-- An engine that aborts transactions leaves nothing to recover from. -/
theorem succeeded_of_aborts (h : Recovered P direct) (haborts : Aborts direct) :
    ∀ sending ∈ direct, sending.2.succeeded := by
  induction h with
  | nil => exact List.forall_mem_nil _
  | succeeded hsent _ ih =>
    exact List.forall_mem_cons.mpr ⟨hsent, ih (List.pairwise_cons.mp haborts).2⟩
  | @recovered failed sending rest _ hsent _ ih =>
    obtain ⟨hfailed, hlater⟩ := List.pairwise_cons.mp haborts
    -- had the first of the two failed, the second would not have succeeded
    have hsucceeded : failed.2.succeeded = true := by
      refine Decidable.byContradiction ?_
      intro hne
      rw [hfailed sending List.mem_cons_self (Bool.eq_false_iff.mpr hne)] at hsent
      exact nomatch hsent
    have hrest : ∀ sending ∈ rest, sending.2.succeeded := ih (List.pairwise_cons.mp hlater).2
    exact List.forall_mem_cons.mpr ⟨hsucceeded, List.forall_mem_cons.mpr ⟨hsent, hrest⟩⟩

end Recovered

/-! ## Work and what it sends directly -/

open Event (SendsDirectly)

/-- The answer to a statement, which fails as the statement does. -/
inductive IsAnswer (statement : Statement) : Result α → List Sending → Prop
  | answered {a : α} {outcome : Outcome} :
    outcome.succeeded → IsAnswer statement (.ok a) [(statement, outcome)]
  | failed {e : Error} : IsAnswer statement (.error e) [(statement, .failed e)]

/-- The answer to a statement, or another one if a table is missing. -/
inductive IsAnswerOr (statement : Statement) (otherwise : α) : Result α → List Sending → Prop
  | answered {a : α} {outcome : Outcome} :
    outcome.succeeded → IsAnswerOr statement otherwise (.ok a) [(statement, outcome)]
  | passedOver {e : Error} :
    e.isUndefinedTable → IsAnswerOr statement otherwise (.ok otherwise) [(statement, .failed e)]
  | failed {e : Error} : IsAnswerOr statement otherwise (.error e) [(statement, .failed e)]

namespace Work

variable {w body : Work α} {f : α → Work β} {handle : Error → Work α}
  {Q Q' : Result α → List Sending → Prop} {R : Result β → List Sending → Prop}
  {P : Sending → Prop}

/-- The statements that work sends where `target` transactions are open, with what became of each.
-/
def sentAt (target : Nat) (w : Work α) (s : Session) : List Sending :=
  Event.sentAt target 0 ((w.run s).2.journal.drop s.journal.length)

/-- The result of work is related to the statements that it sends in no transaction of its own. -/
def Directly (Q : Result α → List Sending → Prop) (w : Work α) : Prop :=
  Leaves (fun result events => ∃ direct, SendsDirectly direct events ∧ Q result direct) w

/-- What work sends directly may be said in weaker words. -/
theorem Directly.mono (h : Directly Q w)
    (hq : ∀ result direct, Q result direct → Q' result direct) : Directly Q' w :=
  Leaves.mono h fun _ _ ⟨direct, hsends, hresult⟩ => ⟨direct, hsends, hq _ _ hresult⟩

/-- Doing nothing sends nothing. -/
theorem directly_pure {a : α} (h : Q (.ok a) []) : Directly Q (pure a : Work α) :=
  leaves_pure ⟨[], Event.sendsDirectly_nil, h⟩

/-- Failing sends nothing. -/
theorem directly_throw {e : Error} (h : Q (.error e) []) : Directly Q (throw e : Work α) :=
  leaves_throw ⟨[], Event.sendsDirectly_nil, h⟩

/-- A notice is no statement. -/
theorem directly_notify {notice : Notice} {Q : Result Unit → List Sending → Prop}
    (h : Q (.ok ()) []) : Directly Q (notify notice) :=
  leaves_notify ⟨[], Event.sendsDirectly_nil, h⟩

/-- Work in a row sends what its parts send; after a failure it sends no more. -/
theorem directly_bind (h : Directly Q w)
    (hf : ∀ a direct, Q (.ok a) direct →
      Directly (fun result later => R result (direct ++ later)) (f a))
    (herror : ∀ e direct, Q (.error e) direct → R (.error e) direct) : Directly R (w >>= f) := by
  refine leaves_bind h ?_ fun e events ⟨direct, hsends, he⟩ => ⟨direct, hsends, herror e direct he⟩
  rintro a events ⟨direct, hsends, ha⟩
  exact Leaves.mono (hf a direct ha) fun _ _ ⟨later, hlater, hresult⟩ =>
    ⟨direct ++ later, hsends.append hlater, hresult⟩

/-- Where work is recovered from, what is done in its place comes after what it sent. -/
theorem directly_recover (h : Directly Q body)
    (hok : ∀ a direct, Q (.ok a) direct → Q' (.ok a) direct)
    (hhandle : ∀ e direct, Q (.error e) direct →
      Directly (fun result later => Q' result (direct ++ later)) (handle e)) :
    Directly Q' (body.recover handle) := by
  refine leaves_recover h (fun a events ⟨direct, hsends, ha⟩ => ⟨direct, hsends, hok a direct ha⟩)
    ?_
  rintro e events ⟨direct, hsends, he⟩
  exact Leaves.mono (hhandle e direct he) fun _ _ ⟨later, hlater, hresult⟩ =>
    ⟨direct ++ later, hsends.append hlater, hresult⟩

/-- A query sends its statement directly, and is answered as it is. -/
theorem directly_query (statement : Statement) :
    Directly (IsAnswer statement) (query statement) := by
  refine leaves_query ?_ ?_
  · intro rows
    exact ⟨_, Event.sendsDirectly_sent _ _, .answered rfl⟩
  · intro e
    exact ⟨_, Event.sendsDirectly_sent _ _, .failed⟩

/-- A statement without rows is sent directly, and is answered as it is. -/
theorem directly_execute (statement : Statement) :
    Directly (IsAnswer statement) (execute statement) := by
  refine leaves_execute ?_ ?_
  · intro count
    exact ⟨_, Event.sendsDirectly_sent _ _, .answered rfl⟩
  · intro e
    exact ⟨_, Event.sendsDirectly_sent _ _, .failed⟩

/-- An answer may be worked on. -/
theorem directly_map_answer {statement : Statement} (h : Directly (IsAnswer statement) w)
    (g : α → β) : Directly (IsAnswer statement) (w >>= fun a => pure (g a)) := by
  refine directly_bind h ?_ ?_
  · intro a direct ha
    cases ha with
    | answered hsucceeded => exact directly_pure (.answered hsucceeded)
  · intro e direct he
    cases he with
    | failed => exact .failed

/-- An answer with another one for a missing table may be worked on, and so is the other one. -/
theorem directly_map_answerOr {statement : Statement} {otherwise : α}
    (h : Directly (IsAnswerOr statement otherwise) w) (g : α → β) :
    Directly (IsAnswerOr statement (g otherwise)) (w >>= fun a => pure (g a)) := by
  refine directly_bind h ?_ ?_
  · intro a direct ha
    cases ha with
    | answered hsucceeded => exact directly_pure (.answered hsucceeded)
    | passedOver hundefined => exact directly_pure (.passedOver hundefined)
  · intro e direct he
    cases he with
    | failed => exact .failed

/-- A missing table is passed over, any other failure is not. -/
theorem directly_orIfUndefined {statement : Statement} {otherwise : α}
    (h : Directly (IsAnswer statement) w) :
    Directly (IsAnswerOr statement otherwise) (w.orIfUndefined otherwise) := by
  refine directly_recover h ?_ ?_
  · intro a direct ha
    cases ha with
    | answered hsucceeded => exact .answered hsucceeded
  · intro e direct he
    cases he with
    | failed =>
      split
      next hundefined => exact directly_pure (.passedOver hundefined)
      next => exact directly_throw .failed

/-! ## Statements under a guard -/

/-- All that work sends is under a guard of its own. -/
def Guarded (w : Work α) : Prop := Directly (fun _ direct => direct = []) w

/-- Doing nothing is guarded. -/
theorem guarded_pure (a : α) : Guarded (pure a : Work α) := directly_pure rfl

/-- Guarded work in a row is guarded. -/
theorem guarded_bind (h : Guarded w) (hf : ∀ a, Guarded (f a)) : Guarded (w >>= f) := by
  refine directly_bind h ?_ fun e direct hnil => hnil
  intro a direct hnil
  subst hnil
  exact hf a

/-- Guarded work with guarded work in place of a failure is guarded. -/
theorem guarded_recover (h : Guarded body) (hhandle : ∀ e, Guarded (handle e)) :
    Guarded (body.recover handle) := by
  refine directly_recover h (fun a direct hnil => hnil) ?_
  intro e direct hnil
  subst hnil
  exact hhandle e

/-- A statement that may lose a race has a savepoint of its own. -/
theorem guarded_executeTolerant (statement : TableStatement) (tolerated : List SqlState) :
    Guarded (executeTolerant statement tolerated) := by
  have hsent : Leaves (fun _ events => ∃ outcome, events = [.sent (.table statement) outcome])
      (execute (.table statement)) :=
    leaves_execute (fun _ => ⟨_, rfl⟩) fun _ => ⟨_, rfl⟩
  have hguard : Guarded (execute (.table statement)).transaction := by
    unfold Guarded Directly
    refine leaves_transaction (hsent.mono ?_)
    rintro result _ ⟨outcome, rfl⟩ depth
    exact ⟨[], Event.sendsDirectly_guard depth _ outcome _, rfl⟩
  refine guarded_recover (guarded_bind hguard fun _ => guarded_pure _) ?_
  intro e
  split
  · exact guarded_bind (directly_notify rfl) fun _ => guarded_pure _
  · exact directly_throw rfl

/-- Guarded work sends nothing outside of all transactions. -/
theorem Guarded.sentAt_zero (h : Guarded w) (s : Session) : w.sentAt 0 s = [] := by
  obtain ⟨events, hjournal, _, hsends, rfl⟩ := h s
  rw [sentAt, hjournal, List.drop_left]
  simpa using hsends 0 []

/-! ## Work that succeeds after failures -/

/-- If work succeeds, so did all that it sent directly, except for what it recovered from. -/
def Recovers (P : Sending → Prop) (w : Work α) : Prop :=
  Directly (fun result direct => result.isOk → Recovered P direct) w

/-- Guarded work has nothing to recover from. -/
theorem Guarded.recovers (h : Guarded w) : Recovers P w :=
  h.mono fun _ _ hnil _ => hnil ▸ .nil

/-- A statement whose answer is passed on succeeded if the work did. -/
theorem recovers_answer {statement : Statement} (h : Directly (IsAnswer statement) w) :
    Recovers P w :=
  h.mono fun _ _ hanswer hok => by
    cases hanswer with
    | answered hsucceeded => exact .succeeded hsucceeded .nil
    | failed => exact nomatch hok

/-- Doing nothing fails nowhere. -/
theorem recovers_pure (a : α) : Recovers P (pure a : Work α) := directly_pure fun _ => .nil

/-- Work that fails has nothing to answer for. -/
theorem recovers_throw (e : Error) : Recovers P (throw e : Work α) := directly_throw nofun

/-- A notice fails nowhere. -/
theorem recovers_notify (notice : Notice) : Recovers P (notify notice) :=
  directly_notify fun _ => .nil

/-- A result that is known sends nothing. -/
theorem recovers_ofResult (result : Result α) : Recovers P (ofResult result) := by
  cases result with
  | ok a => exact recovers_pure a
  | error e => exact recovers_throw e

/-- Work in a row succeeds where its parts do, each after what it recovered from. -/
theorem recovers_bind (h : Recovers P w) (hf : ∀ a, Recovers P (f a)) :
    Recovers P (w >>= f) := by
  refine directly_bind h ?_ fun _ _ _ => nofun
  intro a direct hdirect
  exact (hf a).mono fun result later hlater hok => (hdirect rfl).append (hlater hok)

/-- A loop succeeds where all of its steps do. -/
theorem recovers_forM {items : List α} {g : α → Work PUnit} (h : ∀ item, Recovers P (g item)) :
    Recovers P (items.forM g) := by
  induction items with
  | nil => exact recovers_pure _
  | cons item rest ih => exact recovers_bind (h item) fun _ => ih

/-- Nothing that fails under a guard stands in the way of what is done in its place. -/
theorem recovers_recover_of_guarded (h : Guarded body) (hhandle : ∀ e, Recovers P (handle e)) :
    Recovers P (body.recover handle) :=
  directly_recover h (fun _ _ hnil _ => hnil ▸ .nil) fun e _ hnil => hnil ▸ hhandle e

/-! ## Work that opens a transaction -/

/-- If work succeeds, what it sent directly in the transaction that it opened has a property. -/
def Opens (G : List Sending → Prop) (w : Work α) : Prop :=
  Leaves (fun result events => result.isOk → G (Event.sentAt 1 0 events)) w

variable {G : List Sending → Prop}

/-- If work succeeds, what it sent in the transaction that it opened has the property. -/
theorem Opens.sentAt_one (h : Opens G w) {s : Session} (hok : (w.run s).1.isOk) :
    G (w.sentAt 1 s) := by
  obtain ⟨events, hjournal, hevents⟩ := h s
  rw [sentAt, hjournal, List.drop_left]
  exact hevents hok

/-- What the body of a transaction sends directly stands in the transaction. -/
theorem opens_transaction (h : Directly (fun result direct => result.isOk → G direct) body) :
    Opens G body.transaction := by
  refine leaves_transaction (Leaves.mono h ?_)
  intro result events hbody depth hok
  obtain ⟨direct, hsends, hdirect⟩ := hbody
  rw [hsends.sentAt_transaction]
  exact hdirect hok

/-- Reads before the transaction do not stand in it. -/
theorem opens_bind_of_reads (h : Keeps Event.Reads w) (hf : ∀ a, Opens G (f a)) :
    Opens G (w >>= f) := by
  refine leaves_bind (leaves_of_keeps h) ?_ fun _ _ _ => nofun
  rintro a reads ⟨depth, hreads⟩
  refine (hf a).mono ?_
  intro _ events hevents hok
  rw [Event.sentAt_reads hreads]
  exact hevents hok

/-- Quiet work may come after the transaction. -/
theorem opens_bind_of_isQuiet (h : Opens G w) (hf : ∀ a, IsQuiet (f a)) : Opens G (w >>= f) := by
  refine leaves_bind h (fun a events hevents => leaves_of_journal_eq ?_) fun _ _ _ => nofun
  intro s
  obtain ⟨b, s', hrun, hjournal⟩ := hf a s
  rw [hrun]
  exact ⟨hjournal, fun _ => (List.append_nil events).symm ▸ hevents rfl⟩

end Work

end ObjectStore
