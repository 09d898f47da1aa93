import ObjectStore.Engine.Session

/-!
# What work sends

Work only ever adds to the journal of a session and never moves its clock. `Session.Continues P`
says this of two sessions, together with a property `P` of every statement that was added; and
`Work.Ensures P s w Q` says it of work that starts in a session `s`, together with what the result
is like if there is one.

The rules follow the constructors of work: doing nothing, one piece after another, sending a
statement, recovering from a failure and a transaction. With them a claim about all statements that
an operation can send goes through the operation from top to bottom, whatever the engine answers and
wherever it fails.
-/

namespace ObjectStore

variable {P : Statement → Prop} {α β : Type}

/-- A later session: the clock stands still, and the statements that were added have a property. -/
structure Session.Continues (P : Statement → Prop) (s s' : Session) : Prop where
  now : s'.now = s.now
  journal : ∃ events, s'.journal = s.journal ++ events ∧
    ∀ statement outcome, Event.sent statement outcome ∈ events → P statement

namespace Session.Continues

variable {s s' s'' : Session}

/-- A session continues itself. -/
theorem refl (s : Session) : Continues P s s := ⟨rfl, [], by simp, by simp⟩

/-- What continues a continuation continues the session. -/
theorem trans (h : Continues P s s') (h' : Continues P s' s'') : Continues P s s'' := by
  obtain ⟨events, he, hp⟩ := h.journal
  obtain ⟨events', he', hp'⟩ := h'.journal
  refine ⟨h'.now.trans h.now, events ++ events', by rw [he', he, List.append_assoc], ?_⟩
  intro statement outcome hmem
  rcases List.mem_append.mp hmem with hmem | hmem
  · exact hp statement outcome hmem
  · exact hp' statement outcome hmem

/-- A session with one more event, whose statement has the property if it is one. -/
theorem record {event : Event} (hnow : s'.now = s.now)
    (hjournal : s'.journal = s.journal ++ [event])
    (h : ∀ statement outcome, event = .sent statement outcome → P statement) :
    Continues P s s' := by
  refine ⟨hnow, [event], hjournal, ?_⟩
  intro statement outcome hmem
  exact h statement outcome (List.mem_singleton.mp hmem).symm

/-- A session with the same clock and the same journal is a continuation. -/
theorem of_eq (hnow : s'.now = s.now) (hjournal : s'.journal = s.journal) : Continues P s s' :=
  ⟨hnow, [], by simp [hjournal], by simp⟩

end Session.Continues

namespace Work

open Session (Continues)

/-- All that work sends from a session has a property, and so has its result, if there is one. -/
structure Ensures (P : Statement → Prop) (s : Session) (w : Work α)
    (Q : α → Session → Prop) : Prop where
  continues : Continues P s (w.run s).2
  result : ∀ a, (w.run s).1 = .ok a → Q a (w.run s).2

/-- All that work sends has a property, wherever it starts. -/
def Sends (P : Statement → Prop) (w : Work α) : Prop := ∀ s, Ensures P s w fun _ _ => True

variable {s : Session} {w : Work α} {f : α → Work β} {Q Q' : α → Session → Prop}
  {R : β → Session → Prop}

/-- What is ensured of the result may be said in weaker words. -/
theorem Ensures.mono (h : Ensures P s w Q) (hq : ∀ a s', Continues P s s' → Q a s' → Q' a s') :
    Ensures P s w Q' :=
  ⟨h.continues, fun a ha => hq a _ h.continues (h.result a ha)⟩

/-- The result of work is known to be the one it has from where it starts. -/
theorem Ensures.self (h : Ensures P s w Q) :
    Ensures P s w fun a s' => Q a s' ∧ w.run s = (.ok a, s') :=
  ⟨h.continues, fun a ha => ⟨h.result a ha, Prod.ext ha rfl⟩⟩

/-- Two things that are ensured of the result are ensured together. -/
theorem Ensures.and (h : Ensures P s w Q) (h' : Ensures P s w Q') :
    Ensures P s w fun a s' => Q a s' ∧ Q' a s' :=
  ⟨h.continues, fun a ha => ⟨h.result a ha, h'.result a ha⟩⟩

/-- The statements that work adds to the journal of a session, in order. -/
def sent (w : Work α) (s : Session) : List Statement :=
  ((w.run s).2.journal.drop s.journal.length).filterMap fun
    | .sent statement _ => some statement
    | _ => none

/-- What all that work sends is ensured to be, each statement that it sent is. -/
theorem Ensures.of_mem_sent (h : Ensures P s w Q) {statement : Statement}
    (hmem : statement ∈ w.sent s) : P statement := by
  obtain ⟨events, hjournal, hevents⟩ := h.continues.journal
  rw [sent, hjournal, List.drop_left] at hmem
  obtain ⟨event, he, heq⟩ := List.mem_filterMap.mp hmem
  split at heq
  next sentStatement outcome => exact Option.some.inj heq ▸ hevents _ outcome he
  next => cases heq

/-- What work sends has what is ensured of it and is among what it sends. -/
theorem Ensures.of_sent (h : Ensures P s w Q) :
    Ensures (fun statement => P statement ∧ statement ∈ w.sent s) s w Q := by
  obtain ⟨⟨hnow, events, hjournal, hevents⟩, hresult⟩ := h
  refine ⟨⟨hnow, events, hjournal, fun statement outcome hmem => ⟨hevents _ _ hmem, ?_⟩⟩, hresult⟩
  rw [sent, hjournal, List.drop_left]
  exact List.mem_filterMap.mpr ⟨_, hmem, rfl⟩

/-- What is ensured of all statements may be said in weaker words. -/
theorem Ensures.weaken {P' : Statement → Prop} (h : Ensures P s w Q) (hp : ∀ st, P st → P' st) :
    Ensures P' s w Q := by
  obtain ⟨⟨hnow, events, hjournal, hevents⟩, hresult⟩ := h
  exact ⟨⟨hnow, events, hjournal, fun st o hmem => hp st (hevents st o hmem)⟩, hresult⟩

/-- What is sent may be described in weaker words. -/
theorem Sends.weaken {P' : Statement → Prop} (h : Sends P w) (hp : ∀ st, P st → P' st) :
    Sends P' w := fun s => (h s).weaken hp

/-! ## Rules -/

/-- Doing nothing sends nothing, and its result is the given one. -/
theorem ensures_pure {a : α} (h : Q a s) : Ensures P s (pure a : Work α) Q :=
  ⟨Continues.refl s, fun _ hb => Except.ok.inj hb ▸ h⟩

/-- Work that fails sends nothing and has no result. -/
theorem ensures_throw {e : Error} : Ensures P s (throw e : Work α) Q :=
  ⟨Continues.refl s, fun _ hb => nomatch hb⟩

/-- The second piece of work runs where the first one succeeded. -/
theorem run_bind (w : Work α) (f : α → Work β) (s : Session) :
    (w >>= f).run s = match w.run s with
      | (.ok a, s') => (f a).run s'
      | (.error e, s') => (.error e, s') := by
  change (match (w.run s) with | (a, s') => (ExceptT.bindCont f a : StateM Session _) s') = _
  rcases w.run s with ⟨_ | _, s'⟩ <;> rfl

/-- Work in a row: what follows is asked about from where the first piece succeeded. -/
theorem ensures_bind (h : Ensures P s w Q)
    (hf : ∀ a s', Continues P s s' → Q a s' → Ensures P s' (f a) R) :
    Ensures P s (w >>= f) R := by
  obtain ⟨hcontinues, hresult⟩ := h
  rcases hw : w.run s with ⟨e | a, s'⟩
  · -- a first piece that failed is all there is
    rw [hw] at hcontinues
    have hrun : (w >>= f).run s = (.error e, s') := by rw [run_bind, hw]
    refine ⟨?_, ?_⟩
    · rw [hrun]
      exact hcontinues
    · rw [hrun]
      exact nofun
  · rw [hw] at hcontinues hresult
    have hrun : (w >>= f).run s = (f a).run s' := by rw [run_bind, hw]
    have hrest : Ensures P s' (f a) R := hf a s' hcontinues (hresult a rfl)
    refine ⟨?_, ?_⟩
    · rw [hrun]
      exact hcontinues.trans hrest.continues
    · rw [hrun]
      exact hrest.result

/-- The work in place of a failure runs where the failure left the session. -/
theorem run_recover (body : Work α) (handle : Error → Work α) (s : Session) :
    (body.recover handle).run s = match body.run s with
      | (.ok a, s') => (.ok a, s')
      | (.error e, s') => (handle e).run s' :=
  rfl

/-- Where work is recovered from, what is done in its place starts where the failure left the
session. -/
theorem ensures_recover {body : Work α} {handle : Error → Work α} (h : Ensures P s body Q)
    (hhandle : ∀ e s', Continues P s s' → Ensures P s' (handle e) Q) :
    Ensures P s (body.recover handle) Q := by
  obtain ⟨hcontinues, hresult⟩ := h
  rcases hb : body.run s with ⟨e | a, s'⟩
  · rw [hb] at hcontinues
    have hrun : (body.recover handle).run s = (handle e).run s' := by rw [run_recover, hb]
    have hinstead : Ensures P s' (handle e) Q := hhandle e s' hcontinues
    refine ⟨?_, ?_⟩
    · rw [hrun]
      exact hcontinues.trans hinstead.continues
    · rw [hrun]
      exact hinstead.result
  · -- without a failure the work is the body
    rw [hb] at hcontinues hresult
    have hrun : (body.recover handle).run s = (.ok a, s') := by rw [run_recover, hb]
    refine ⟨?_, ?_⟩
    · rw [hrun]
      exact hcontinues
    · rw [hrun]
      exact hresult

/-- Rewording a failure changes no statement and no result. -/
theorem ensures_rewordFailure {reword : Error → Error} {body : Work α} (h : Ensures P s body Q) :
    Ensures P s (body.rewordFailure reword) Q :=
  ensures_recover h fun _ _ _ => ensures_throw

/-- A result that is known is what is said of it. -/
theorem ensures_ofResult {result : Result α} (h : ∀ a, result = .ok a → Q a s) :
    Ensures P s (ofResult result) Q := by
  cases result with
  | ok a => exact ensures_pure (h a rfl)
  | error e => exact ensures_throw

/-- What goes on with a result that is known goes on from where it started. -/
theorem ensures_bind_ofResult {result : Result α}
    (hf : ∀ a, result = .ok a → Ensures P s (f a) R) : Ensures P s (ofResult result >>= f) R := by
  have hresult : Ensures P s (ofResult result) fun a s' => result = .ok a ∧ s' = s :=
    ensures_ofResult fun a h => ⟨h, rfl⟩
  refine ensures_bind hresult ?_
  intro a s' _ h
  obtain ⟨ha, rfl⟩ := h
  exact hf a ha

/-- A query sends its statement and no other. -/
theorem ensures_query {statement : Statement} (h : P statement) :
    Ensures P s (query statement) fun _ _ => True :=
  ⟨.record rfl rfl fun _ _ heq => (Event.sent.inj heq).1 ▸ h, fun _ _ => trivial⟩

/-- A statement without rows is sent and no other. -/
theorem ensures_execute {statement : Statement} (h : P statement) :
    Ensures P s (execute statement) fun _ _ => True :=
  ⟨.record rfl rfl fun _ _ heq => (Event.sent.inj heq).1 ▸ h, fun _ _ => trivial⟩

/-- Asking for the time sends nothing and changes nothing. -/
theorem ensures_now : Ensures P s now fun t s' => t = s.now ∧ s' = s :=
  ⟨Continues.refl s, fun _ ht => ⟨(Except.ok.inj ht).symm, rfl⟩⟩

/-- Asking for the loaded classes sends nothing and changes nothing. -/
theorem ensures_classes : Ensures P s classes fun loaded s' => loaded = s.classes ∧ s' = s :=
  ⟨Continues.refl s, fun _ hl => ⟨(Except.ok.inj hl).symm, rfl⟩⟩

/-! ## Work of which only the statements matter -/

/-- Doing nothing sends nothing. -/
theorem sends_pure (a : α) : Sends P (pure a : Work α) := fun _ => ensures_pure trivial

/-- Failing sends nothing. -/
theorem sends_throw (e : Error) : Sends P (throw e : Work α) := fun _ => ensures_throw

/-- Work in a row sends what its parts send. -/
theorem sends_bind (h : Sends P w) (hf : ∀ a, Sends P (f a)) : Sends P (w >>= f) :=
  fun s => ensures_bind (h s) fun a s' _ _ => hf a s'

/-- A result that is known sends nothing. -/
theorem sends_ofResult (result : Result α) : Sends P (ofResult result) :=
  fun _ => ensures_ofResult fun _ _ => trivial

/-- A query sends its statement. -/
theorem sends_query {statement : Statement} (h : P statement) : Sends P (query statement) :=
  fun _ => ensures_query h

/-- A statement without rows is sent. -/
theorem sends_execute {statement : Statement} (h : P statement) : Sends P (execute statement) :=
  fun _ => ensures_execute h

/-- A notice is no statement. -/
theorem sends_notify (notice : Notice) : Sends P (notify notice) :=
  fun _ => ⟨.of_eq rfl rfl, fun _ _ => trivial⟩

/-- A new id takes no statement. -/
theorem sends_freshId : Sends P freshId := fun _ => ⟨.of_eq rfl rfl, fun _ _ => trivial⟩

/-- Asking for the loaded classes takes no statement. -/
theorem sends_classes : Sends P classes := fun _ => ensures_classes.mono fun _ _ _ _ => trivial

/-- Changing the loaded classes takes no statement. -/
theorem sends_changeClasses (g : Dict Schema → Dict Schema) : Sends P (changeClasses g) :=
  fun _ => ⟨.of_eq rfl rfl, fun _ _ => trivial⟩

/-- What is done in place of a failure is sent too. -/
theorem sends_recover {body : Work α} {handle : Error → Work α} (h : Sends P body)
    (hhandle : ∀ e, Sends P (handle e)) : Sends P (body.recover handle) :=
  fun s => ensures_recover (h s) fun e s' _ => hhandle e s'

/-- Rewording a failure sends nothing. -/
theorem sends_rewordFailure {reword : Error → Error} {body : Work α} (h : Sends P body) :
    Sends P (body.rewordFailure reword) :=
  sends_recover h fun _ => sends_throw _

/-- Answering for a missing table sends nothing. -/
theorem sends_orIfUndefined {body : Work α} {otherwise : α} (h : Sends P body) :
    Sends P (body.orIfUndefined otherwise) := by
  refine sends_recover h ?_
  intro e
  split
  · exact sends_pure _
  · exact sends_throw _

/-- A transaction adds its own events to those of its body. -/
theorem sends_transaction {body : Work α} (h : Sends P body) : Sends P body.transaction := by
  intro s
  -- the events that enter and leave a transaction are no statements
  have henter : Continues P s s.enter := .record rfl rfl fun _ _ h => by cases h
  have hbody := henter.trans (h s.enter).continues
  have hrun : body.transaction.run s = match body.run s.enter with
      | (.ok a, after) => (.ok a, after.leave s.depth .kept)
      | (.error e, after) => (.error e, after.leave s.depth .undone) := rfl
  refine ⟨?_, fun _ _ => trivial⟩
  rw [hrun]
  rcases hb : body.run s.enter with ⟨e | a, after⟩ <;> rw [hb] at hbody
  · exact hbody.trans (.record rfl rfl fun _ _ h => by cases h)
  · exact hbody.trans (.record rfl rfl fun _ _ h => by cases h)

/-- A loop sends what its steps send. -/
theorem sends_forM {items : List α} {g : α → Work PUnit} (h : ∀ a ∈ items, Sends P (g a)) :
    Sends P (items.forM g) := by
  induction items with
  | nil => exact sends_pure _
  | cons item rest ih =>
    exact sends_bind (h item List.mem_cons_self)
      fun _ => ih fun a ha => h a (List.mem_cons_of_mem _ ha)

/-- A statement that may lose a race is sent once, under a savepoint. -/
theorem sends_executeTolerant {statement : TableStatement} {tolerated : List SqlState}
    (h : P (.table statement)) : Sends P (executeTolerant statement tolerated) := by
  refine sends_recover ?_ ?_
  · exact sends_bind (sends_transaction (sends_execute h)) fun _ => sends_pure _
  · intro e
    split
    · exact sends_bind (sends_notify _) fun _ => sends_pure _
    · exact sends_throw _

end Work

end ObjectStore
