import ObjectStore.Proofs.Engine.Transactions

/-!
# Results with their traces

`Work.Leaves Q w` says that `Q` relates the result of work to the events that the work adds to a
journal, wherever it starts and whatever the engine answers. In contrast to `Work.Ensures` it looks
at the events in their order and with their outcomes, and it speaks of failures as well.

The rules follow the constructors of work. What comes second is asked to extend every trace that
the first may have left, so a relation is stated once for the whole and carried down.

`Work.Logs Q w` says the same of the log of work, which has the statements that were sent and what
became of them, and leaves out the transactions that they stood in. Where failures do not matter,
`Work.LogsIfOk` speaks of work that succeeds only.

Most work has a plan: statements that are sent one after another until one of them fails in a way
that may not be passed over. `CarriedOut` relates a plan to the result of work and to what was sent
of the plan, and `Work.CarriesOut` says that work has it.
-/

namespace ObjectStore.Work

variable {α β : Type} {w body : Work α} {f : α → Work β} {handle : Error → Work α}
  {Q Q' : Result α → List Event → Prop} {R : Result β → List Event → Prop}

/-- The result of work that starts in a session is related to the events that it adds. -/
def LeavesFrom (s : Session) (Q : Result α → List Event → Prop) (w : Work α) : Prop :=
  ∃ events, (w.run s).2.journal = s.journal ++ events ∧ Q (w.run s).1 events

/-- The result of work is related to the events that it adds, wherever it starts. -/
def Leaves (Q : Result α → List Event → Prop) (w : Work α) : Prop := ∀ s, LeavesFrom s Q w

/-- What work leaves behind may be said in weaker words. -/
theorem Leaves.mono (h : Leaves Q w) (hq : ∀ result events, Q result events → Q' result events) :
    Leaves Q' w := by
  intro s
  obtain ⟨events, hjournal, hresult⟩ := h s
  exact ⟨events, hjournal, hq _ _ hresult⟩

/-- Work that leaves the journal alone adds no events. -/
theorem leaves_of_journal_eq (h : ∀ s, (w.run s).2.journal = s.journal ∧ Q (w.run s).1 []) :
    Leaves Q w := fun s => ⟨[], by rw [(h s).1, List.append_nil], (h s).2⟩

/-- Doing nothing leaves no trace. -/
theorem leaves_pure {a : α} (h : Q (.ok a) []) : Leaves Q (pure a : Work α) :=
  leaves_of_journal_eq fun _ => ⟨rfl, h⟩

/-- Failing leaves no trace of its own. -/
theorem leaves_throw {e : Error} (h : Q (.error e) []) : Leaves Q (throw e : Work α) :=
  leaves_of_journal_eq fun _ => ⟨rfl, h⟩

theorem leaves_notify {notice : Notice} {Q : Result Unit → List Event → Prop} (h : Q (.ok ()) []) :
    Leaves Q (notify notice) :=
  leaves_of_journal_eq fun _ => ⟨rfl, h⟩

/-- What comes second extends the trace of what succeeded before it, and starts where it stopped. -/
theorem leavesFrom_bind {s : Session} (h : LeavesFrom s Q w)
    (hf : ∀ a s' events, w.run s = (.ok a, s') → Q (.ok a) events →
      LeavesFrom s' (fun result later => R result (events ++ later)) (f a))
    (herror : ∀ e events, Q (.error e) events → R (.error e) events) :
    LeavesFrom s R (w >>= f) := by
  obtain ⟨events, hjournal, hresult⟩ := h
  rw [LeavesFrom, run_bind]
  rcases hw : w.run s with ⟨e | a, s'⟩
  · rw [hw] at hjournal hresult
    exact ⟨events, hjournal, herror e events hresult⟩
  · rw [hw] at hjournal hresult
    obtain ⟨later, hjournal', hresult'⟩ := hf a s' events hw hresult
    refine ⟨events ++ later, ?_, hresult'⟩
    rw [hjournal', hjournal, List.append_assoc]

/-- Work in a row leaves one trace after the other. -/
theorem leaves_bind (h : Leaves Q w)
    (hf : ∀ a events, Q (.ok a) events →
      Leaves (fun result later => R result (events ++ later)) (f a))
    (herror : ∀ e events, Q (.error e) events → R (.error e) events) : Leaves R (w >>= f) :=
  fun s => leavesFrom_bind (h s) (fun a s' events _ ha => hf a events ha s') herror

/-- What is done in place of a failure extends the trace of the failure. -/
theorem leaves_recover (h : Leaves Q body)
    (hok : ∀ a events, Q (.ok a) events → Q' (.ok a) events)
    (hhandle : ∀ e events, Q (.error e) events →
      Leaves (fun result later => Q' result (events ++ later)) (handle e)) :
    Leaves Q' (body.recover handle) := by
  intro s
  obtain ⟨events, hjournal, hresult⟩ := h s
  rw [LeavesFrom, run_recover]
  rcases hb : body.run s with ⟨e | a, s'⟩
  · rw [hb] at hjournal hresult
    obtain ⟨later, hjournal', hresult'⟩ := hhandle e events hresult s'
    refine ⟨events ++ later, ?_, hresult'⟩
    rw [hjournal', hjournal, List.append_assoc]
  · rw [hb] at hjournal hresult
    exact ⟨events, hjournal, hok a events hresult⟩

/-- A query leaves its statement, with the rows or the failure that it is answered with. -/
theorem leaves_query {statement : Statement} {Q : Result (List Row) → List Event → Prop}
    (hok : ∀ rows, Q (.ok rows) [.sent statement (.rows rows)])
    (herror : ∀ e, Q (.error e) [.sent statement (.failed e)]) : Leaves Q (query statement) := by
  intro s
  have hrun : (query statement).run s = Session.query statement s := rfl
  rw [LeavesFrom, hrun, Session.query]
  cases s.rowAnswers.headD (.ok []) with
  | ok rows => exact ⟨_, rfl, hok rows⟩
  | error e => exact ⟨_, rfl, herror e⟩

/-- A statement without rows leaves itself, with the count or the failure that it is answered with.
-/
theorem leaves_execute {statement : Statement} {Q : Result Nat → List Event → Prop}
    (hok : ∀ count, Q (.ok count) [.sent statement (.affected count)])
    (herror : ∀ e, Q (.error e) [.sent statement (.failed e)]) : Leaves Q (execute statement) := by
  intro s
  have hrun : (execute statement).run s = Session.execute statement s := rfl
  rw [LeavesFrom, hrun, Session.execute]
  cases s.changeAnswers.headD (.ok 1) with
  | ok count => exact ⟨_, rfl, hok count⟩
  | error e => exact ⟨_, rfl, herror e⟩

/-- A transaction puts its own two events around those of its body. -/
theorem leaves_transaction (h : Leaves (fun result events => ∀ depth,
      Q result (.began depth :: events ++ [.closing depth result.isOk])) body) :
    Leaves Q body.transaction := by
  intro s
  obtain ⟨events, hjournal, hresult⟩ := h s.enter
  rw [LeavesFrom, run_transaction]
  refine ⟨_, ?_, hresult s.depth⟩
  change (body.run s.enter).2.journal ++ _ = _
  rw [hjournal]
  simp [Session.enter, Session.record]

/-- What goes on with a result that is known is all that leaves a trace. -/
theorem leavesFrom_bind_ofResult {result : Result α} {s : Session}
    (hf : ∀ a, result = .ok a → LeavesFrom s R (f a)) (herror : ∀ e, R (.error e) []) :
    LeavesFrom s R (ofResult result >>= f) := by
  cases result with
  | ok a => exact hf a rfl
  | error e => exact leaves_throw (herror e) s

/-- The same wherever the work starts. -/
theorem leaves_bind_ofResult {result : Result α} (hf : ∀ a, result = .ok a → Leaves R (f a))
    (herror : ∀ e, R (.error e) []) : Leaves R (ofResult result >>= f) :=
  fun s => leavesFrom_bind_ofResult (fun a ha => hf a ha s) herror

/-- Nothing need be known of the trace of work that keeps to some grammar. -/
theorem leaves_of_keeps {P : Nat → List Event → Prop} (h : Keeps P w) :
    Leaves (fun _ events => ∃ depth, P depth events) w := by
  intro s
  obtain ⟨-, events, hjournal, hevents⟩ := h s
  exact ⟨events, hjournal, s.depth, hevents⟩

/-- A statement in the trace of work that succeeded is one that the work sent. -/
theorem Leaves.mem_sent {statement : Statement} (h : Leaves (fun result events => result.isOk →
      ∃ outcome, Event.sent statement outcome ∈ events) w) {s : Session}
    (hok : (w.run s).1.isOk) : statement ∈ w.sent s := by
  obtain ⟨events, hjournal, hsent⟩ := h s
  obtain ⟨outcome, hmem⟩ := hsent hok
  rw [sent, hjournal, List.drop_left]
  exact List.mem_filterMap.mpr ⟨_, hmem, rfl⟩

/-- Two things that are left behind are left behind together. -/
theorem Leaves.and (h : Leaves Q w) (h' : Leaves Q' w) :
    Leaves (fun result events => Q result events ∧ Q' result events) w := by
  intro s
  obtain ⟨events, hjournal, hresult⟩ := h s
  obtain ⟨events', hjournal', hresult'⟩ := h' s
  -- the journal has grown by one list of events, whatever is said of it
  obtain rfl : events = events' := List.append_cancel_left (hjournal.symm.trans hjournal')
  exact ⟨events, hjournal, hresult, hresult'⟩

end ObjectStore.Work

/-! ## Plans -/

namespace ObjectStore

variable {α β : Type}

/-- A statement with what became of it. -/
abbrev Sending := Statement × Outcome

/-- The statements among some events, each with what became of it, whatever transactions they stand
in. -/
def Event.sendings (events : List Event) : List Sending :=
  events.filterMap fun
    | .sent statement outcome => some (statement, outcome)
    | _ => none

namespace Event

@[simp] theorem sendings_nil : sendings [] = [] := rfl

/-- Statements of events in a row come in that order. -/
@[simp] theorem sendings_append (events later : List Event) :
    sendings (events ++ later) = sendings events ++ sendings later := List.filterMap_append

@[simp] theorem sendings_sent (statement : Statement) (outcome : Outcome) (rest : List Event) :
    sendings (.sent statement outcome :: rest) = (statement, outcome) :: sendings rest := rfl

/-- The start of a transaction is no statement. -/
@[simp] theorem sendings_began (depth : Nat) (rest : List Event) :
    sendings (.began depth :: rest) = sendings rest := rfl

/-- The end of a transaction is no statement. -/
@[simp] theorem sendings_closing (depth : Nat) (succeeded : Bool) (rest : List Event) :
    sendings (.closing depth succeeded :: rest) = sendings rest := by
  cases succeeded <;> rfl

end Event

/-- The statements of a plan were sent in order, up to the first whose outcome does not pass: that
one failed, and the whole with its failure. -/
inductive CarriedOut (passes : Sending → Prop) : List Statement → Result α → List Sending → Prop
  | finished (a : α) : CarriedOut passes [] (.ok a) []
  | passed {statement : Statement} {outcome : Outcome} {plan : List Statement} {result : Result α}
      {sendings : List Sending} :
    passes (statement, outcome) → CarriedOut passes plan result sendings →
      CarriedOut passes (statement :: plan) result ((statement, outcome) :: sendings)
  | stopped {statement : Statement} {e : Error} (plan : List Statement) :
    ¬ passes (statement, .failed e) →
      CarriedOut passes (statement :: plan) (.error e) [(statement, .failed e)]

namespace CarriedOut

variable {passes : Sending → Prop} {plan later : List Statement} {sendings rest : List Sending}
  {a : α} {e : Error}

/-- What is planned after a plan that was finished is carried out next. -/
theorem append {result : Result β} (h : CarriedOut passes plan (.ok a) sendings)
    (h' : CarriedOut passes later result rest) :
    CarriedOut passes (plan ++ later) result (sendings ++ rest) := by
  -- the result is made a variable for the induction, and known to be `.ok a` in each case
  generalize hok : (.ok a : Result α) = ended at h
  induction h with
  | finished => exact h'
  | passed hpasses _ ih => exact .passed hpasses (ih hok)
  | stopped => exact nomatch hok

/-- What is planned after a plan that was stopped is not begun. -/
theorem stop (h : CarriedOut passes plan (.error e : Result α) sendings)
    (later : List Statement) :
    CarriedOut passes (plan ++ later) (.error e : Result β) sendings := by
  generalize hfailed : (.error e : Result α) = ended at h
  induction h with
  | finished => exact nomatch hfailed
  | passed hpasses _ ih => exact .passed hpasses (ih hfailed)
  | stopped plan hstops =>
    cases hfailed
    exact .stopped _ hstops

end CarriedOut

/-- A statement succeeded, or failed in one of some ways. -/
def Outcome.succeededOr (states : List SqlState) : Outcome → Bool
  | .failed e => states.any e.isState
  | .rows _ | .affected _ => true

/-- The outcomes of a statement under a guard, with the answer whether it was kept. -/
inductive Guards (statement : TableStatement) (tolerated : List SqlState) :
    Result Bool → List Sending → Prop
  | succeeded (count : Nat) :
    Guards statement tolerated (.ok true) [(.table statement, .affected count)]
  | passed {e : Error} : tolerated.any e.isState →
    Guards statement tolerated (.ok false) [(.table statement, .failed e)]
  | failed {e : Error} : ¬ tolerated.any e.isState →
    Guards statement tolerated (.error e) [(.table statement, .failed e)]

namespace Work

variable {w body : Work α} {f : α → Work β} {handle : Error → Work α}
  {Q Q' : Result α → List Sending → Prop} {R : Result β → List Sending → Prop}
  {passes : Sending → Prop} {plan later : List Statement}

/-- The statements that work sends, each with what became of it. -/
def log (w : Work α) (s : Session) : List Sending :=
  Event.sendings ((w.run s).2.journal.drop s.journal.length)

/-- The result of work is related to its log. -/
def Logs (Q : Result α → List Sending → Prop) (w : Work α) : Prop :=
  Leaves (fun result events => Q result (Event.sendings events)) w

/-- The log of work is what the work logs. -/
theorem Logs.log (h : Logs Q w) (s : Session) : Q (w.run s).1 (w.log s) := by
  obtain ⟨events, hjournal, hresult⟩ := h s
  rw [Work.log, hjournal, List.drop_left]
  exact hresult

/-- What work logs may be said in weaker words. -/
theorem Logs.mono (h : Logs Q w) (hq : ∀ result log, Q result log → Q' result log) :
    Logs Q' w :=
  Leaves.mono h fun _ _ => hq _ _

theorem logs_pure {a : α} (h : Q (.ok a) []) : Logs Q (pure a : Work α) := leaves_pure h

theorem logs_throw {e : Error} (h : Q (.error e) []) : Logs Q (throw e : Work α) := leaves_throw h

theorem logs_notify {notice : Notice} {Q : Result Unit → List Sending → Prop} (h : Q (.ok ()) []) :
    Logs Q (notify notice) := leaves_notify h

/-- Work in a row has one log after the other. -/
theorem logs_bind (h : Logs Q w)
    (hf : ∀ a log, Q (.ok a) log → Logs (fun result later => R result (log ++ later)) (f a))
    (herror : ∀ e log, Q (.error e) log → R (.error e) log) : Logs R (w >>= f) := by
  refine leaves_bind h ?_ fun e events he => herror e _ he
  intro a events ha
  refine Leaves.mono (hf a _ ha) ?_
  intro _ later hlater
  rw [Event.sendings_append]
  exact hlater

/-- What is done in place of a failure comes after it in the log. -/
theorem logs_recover (h : Logs Q body) (hok : ∀ a log, Q (.ok a) log → Q' (.ok a) log)
    (hhandle : ∀ e log, Q (.error e) log →
      Logs (fun result later => Q' result (log ++ later)) (handle e)) :
    Logs Q' (body.recover handle) := by
  refine leaves_recover h (fun a events ha => hok a _ ha) ?_
  intro e events he
  refine Leaves.mono (hhandle e _ he) ?_
  intro _ later hlater
  rw [Event.sendings_append]
  exact hlater

/-- The marks of a transaction are no statements. -/
theorem logs_transaction (h : Logs Q body) : Logs Q body.transaction := by
  refine leaves_transaction (Leaves.mono h ?_)
  intro result events hresult depth
  simpa using hresult

/-- A query logs its statement. -/
theorem logs_query {statement : Statement} {Q : Result (List Row) → List Sending → Prop}
    (hok : ∀ rows, Q (.ok rows) [(statement, .rows rows)])
    (hfailed : ∀ e, Q (.error e) [(statement, .failed e)]) : Logs Q (query statement) :=
  leaves_query hok hfailed

/-- A statement without rows logs itself. -/
theorem logs_execute {statement : Statement} {Q : Result Nat → List Sending → Prop}
    (hok : ∀ count, Q (.ok count) [(statement, .affected count)])
    (hfailed : ∀ e, Q (.error e) [(statement, .failed e)]) : Logs Q (execute statement) :=
  leaves_execute hok hfailed

/-- A statement failed and is all that was sent, or what was sent is related to what came of it. -/
def OrFailed (statement : Statement) (P : α → List Sending → Prop) :
    Result α → List Sending → Prop
  | .ok a, log => P a log
  | .error e, log => log = [(statement, .failed e)]

/-- A statement under a guard is kept, or fails in a tolerated way, or fails with all that it stands
in. -/
theorem logs_executeTolerant (statement : TableStatement) (tolerated : List SqlState) :
    Logs (Guards statement tolerated) (executeTolerant statement tolerated) := by
  have hsent : Logs (OrFailed (.table statement) fun kept => Guards statement tolerated (.ok kept))
      (do
        let _ ← (execute (.table statement)).transaction
        pure true) := by
    refine logs_bind
      (Q := OrFailed (.table statement) fun _ => Guards statement tolerated (.ok true))
      (logs_transaction (logs_execute .succeeded fun _ => rfl)) ?_ fun _ _ hlog => hlog
    intro _ log hlog
    refine logs_pure ?_
    rw [List.append_nil]
    exact hlog
  -- only a failure of the statement itself is recovered from
  refine logs_recover hsent (fun _ _ hlog => hlog) ?_
  intro e log hlog
  subst hlog
  split
  next htolerated =>
    have hquiet : Logs (fun result later => result = .ok () ∧ later = [])
        (notify (.raceIgnored e.message)) := logs_notify ⟨rfl, rfl⟩
    refine logs_bind hquiet ?_ ?_
    · intro _ later hlater
      obtain ⟨-, rfl⟩ := hlater
      exact logs_pure (.passed htolerated)
    · intro _ _ herror
      cases herror.1
  next hfatal => exact logs_throw (.failed hfatal)

/-- If work succeeds, what it gives is related to its log. -/
def LogsIfOk (P : α → List Sending → Prop) (w : Work α) : Prop :=
  Logs (fun result log => ∀ a, result = .ok a → P a log) w

section LogsIfOk

variable {P P' : α → List Sending → Prop} {T : β → List Sending → Prop}

/-- What successful work logs may be said in weaker words. -/
theorem LogsIfOk.mono (h : LogsIfOk P w) (hp : ∀ a log, P a log → P' a log) : LogsIfOk P' w :=
  Logs.mono h fun _ _ hresult a ha => hp a _ (hresult a ha)

/-- What work logs is what it logs if it succeeds. -/
theorem Logs.ifOk (h : Logs Q w) (hq : ∀ a log, Q (.ok a) log → P a log) : LogsIfOk P w :=
  h.mono fun _ log hresult a ha => hq a log (ha ▸ hresult)

theorem logsIfOk_pure {a : α} (h : P a []) : LogsIfOk P (pure a : Work α) :=
  logs_pure fun _ ha => Except.ok.inj ha ▸ h

/-- Work that fails has nothing to show for it. -/
theorem logsIfOk_throw (e : Error) : LogsIfOk P (throw e : Work α) := logs_throw nofun

/-- Successful work in a row has one log after the other. -/
theorem logsIfOk_bind (h : LogsIfOk P w)
    (hf : ∀ a log, P a log → LogsIfOk (fun b later => T b (log ++ later)) (f a)) :
    LogsIfOk T (w >>= f) :=
  logs_bind h (fun a log hlog => hf a log (hlog a rfl)) fun _ _ _ => nofun

/-- The log does not depend on what is made of a result. -/
theorem logsIfOk_map {P : List Sending → Prop} (h : LogsIfOk (fun _ => P) w) (g : α → β) :
    LogsIfOk (fun _ => P) (w >>= fun a => pure (g a)) := by
  refine logsIfOk_bind h fun _ log hlog => logsIfOk_pure ?_
  rw [List.append_nil]
  exact hlog

/-- What is told does not show in the log. -/
theorem logsIfOk_notify_bind {notice : Notice} {g : Unit → Work β} (h : LogsIfOk T (g ())) :
    LogsIfOk T (notify notice >>= g) := by
  have hquiet : LogsIfOk (fun _ log => log = []) (notify notice) := logs_notify fun _ _ => rfl
  refine logsIfOk_bind hquiet ?_
  intro _ log hnil
  subst hnil
  exact h

/-- A statement under a guard was kept, or it failed in a way that is passed over. -/
theorem logsIfOk_executeTolerant (statement : TableStatement) (tolerated : List SqlState) :
    LogsIfOk (fun _ log => ∃ outcome : Outcome, outcome.succeededOr tolerated ∧
      log = [(.table statement, outcome)]) (executeTolerant statement tolerated) := by
  refine (logs_executeTolerant statement tolerated).ifOk ?_
  intro _ log hguards
  cases hguards with
  | succeeded count => exact ⟨.affected count, rfl, rfl⟩
  | @passed e htolerated => exact ⟨.failed e, htolerated, rfl⟩

end LogsIfOk

/-- Work has a plan that it carries out. -/
def CarriesOut (passes : Sending → Prop) (plan : List Statement) (w : Work α) : Prop :=
  Logs (CarriedOut passes plan) w

/-- Doing nothing carries out the empty plan. -/
theorem carriesOut_pure (a : α) : CarriesOut passes [] (pure a : Work α) :=
  logs_pure (.finished a)

/-- Work in a row carries out one plan after the other; where the first is stopped, so is the whole.
-/
theorem carriesOut_bind (h : CarriesOut passes plan w) (hf : ∀ a, CarriesOut passes later (f a)) :
    CarriesOut passes (plan ++ later) (w >>= f) := by
  refine logs_bind h ?_ fun e log hlog => hlog.stop later
  intro a log hlog
  exact (hf a).mono fun result rest hrest => hlog.append hrest

/-- Work of which only the result is worked on. -/
theorem carriesOut_discard (h : CarriesOut passes plan w) :
    CarriesOut passes plan (w >>= fun _ => pure PUnit.unit) :=
  plan.append_nil ▸ carriesOut_bind h fun _ => carriesOut_pure _

/-- A loop carries out the statements of its items in order. -/
theorem carriesOut_forM {items : List α} {g : α → Work PUnit} {statement : α → Statement}
    (h : ∀ item, CarriesOut passes [statement item] (g item)) :
    CarriesOut passes (items.map statement) (items.forM g) := by
  induction items with
  | nil => exact carriesOut_pure _
  | cons item rest ih => exact carriesOut_bind (h item) fun _ => ih

/-- A statement whose failures stop the work is a plan of one. -/
theorem carriesOut_execute {statement : Statement}
    (hok : ∀ count, passes (statement, .affected count))
    (hfailed : ∀ e, ¬ passes (statement, .failed e)) :
    CarriesOut passes [statement] (execute statement) := by
  refine logs_execute ?_ ?_
  · intro count
    exact .passed (hok count) (.finished count)
  · intro e
    exact .stopped [] (hfailed e)

/-- A statement under a guard may also fail in one of the ways that are tolerated. -/
theorem carriesOut_executeTolerant {statement : TableStatement} {tolerated : List SqlState}
    (hok : ∀ count, passes (.table statement, .affected count))
    (hfailed : ∀ e : Error, passes (.table statement, .failed e) ↔ tolerated.any e.isState) :
    CarriesOut passes [.table statement] (executeTolerant statement tolerated) := by
  refine (logs_executeTolerant statement tolerated).mono ?_
  intro result log hguards
  cases hguards with
  | succeeded count => exact .passed (hok count) (.finished true)
  | passed htolerated => exact .passed ((hfailed _).mpr htolerated) (.finished false)
  | failed hfatal => exact .stopped [] (mt (hfailed _).mp hfatal)

end Work

end ObjectStore
