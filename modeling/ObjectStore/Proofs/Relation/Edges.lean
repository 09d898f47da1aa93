import ObjectStore.Proofs.Classes.Bookkeeping
import ObjectStore.Proofs.Engine.Tolerance

/-!
# What is written of the edges of an object

Changes to the relations of an object ask for edges: for each operator, one for each id that it
lists. `Settles` says how far a trace gets with the edges that are asked for: nothing is sent for
any other edge, the first of them are settled one after another, each once, and all of them if the
work succeeds.

An edge may be sent twice, when the first time finds no join table, but only the second time counts.
An edge that is to be removed is settled even by a failure, if what is missing is its join table.
-/

namespace ObjectStore

variable {α : Type}

/-! ## Edges in a trace -/

/-- The edge that a statement writes, if it writes one. -/
def Statement.edge? : Statement → Option RelationStatement
  | .relation (.link t owningId relatedId) => some (.link t owningId relatedId)
  | .relation (.unlink t owningId relatedId) => some (.unlink t owningId relatedId)
  | .relation (.owners ..) | .relation (.related ..) => none
  | .rows _ | .insert .. | .aggregate .. | .metadata _ | .table _ => none

/-- Whether nothing is left to do for an edge after an outcome. An edge whose join table is missing
needs no removing. -/
def RelationStatement.isSettledBy : RelationStatement → Outcome → Bool
  | .unlink .., outcome => outcome.succeeded || outcome.isUndefinedTable
  | .link .., outcome | .owners .., outcome | .related .., outcome => outcome.succeeded

namespace Event

/-- The edge that an event tries to write. -/
def edge? : Event → Option RelationStatement
  | .sent statement _ => statement.edge?
  | .began _ | .kept _ | .undone _ => none

/-- The edge that an event settles. -/
def settledEdge? : Event → Option RelationStatement
  | .sent statement outcome => statement.edge?.filter (·.isSettledBy outcome)
  | .began _ | .kept _ | .undone _ => none

/-- Nothing is sent for any edge. -/
def WritesNoEdge (events : List Event) : Prop := events.filterMap edge? = []

/-- Events that send nothing for edges write none, whatever transactions they are in. -/
theorem writesNoEdge_of_sent {events : List Event}
    (h : ∀ statement outcome, .sent statement outcome ∈ events → statement.edge? = none) :
    WritesNoEdge events := by
  refine List.filterMap_eq_nil_iff.mpr ?_
  intro event hmem
  cases event with
  | sent statement outcome => exact h statement outcome hmem
  | began _ | kept _ | undone _ => rfl

/-- Events one after another write no edge if neither part does. -/
theorem WritesNoEdge.append {events later : List Event} (h : WritesNoEdge events)
    (h' : WritesNoEdge later) : WritesNoEdge (events ++ later) := by
  rw [WritesNoEdge, List.filterMap_append, h, h', List.append_nil]

/-- What is not sent is not settled. -/
theorem WritesNoEdge.settles_none {events : List Event} (h : WritesNoEdge events) :
    events.filterMap settledEdge? = [] := by
  refine List.filterMap_eq_nil_iff.mpr ?_
  intro event hmem
  have hnone := List.filterMap_eq_nil_iff.mp h event hmem
  cases event with
  | sent statement outcome => exact congrArg (Option.filter _) hnone
  | began _ | kept _ | undone _ => rfl

end Event

open Event (WritesNoEdge edge? settledEdge?)

/-- Of the edges that are asked for the first ones are settled, in order, and all of them if what
leaves the trace succeeds. Nothing is sent for other edges. -/
structure Settles (asked : List RelationStatement) (succeeded : Bool) (events : List Event) :
    Prop where
  sent_mem : ∀ edge ∈ events.filterMap edge?, edge ∈ asked
  settled : ∃ pending, asked = events.filterMap settledEdge? ++ pending ∧
    (succeeded → pending = [])

namespace Settles

variable {asked later : List RelationStatement} {succeeded : Bool} {events rest : List Event}

/-- Where nothing is asked for, nothing is to be sent. -/
theorem of_writesNoEdge (h : WritesNoEdge events) : Settles [] succeeded events where
  sent_mem edge hmem := by
    rw [show events.filterMap edge? = [] from h] at hmem
    exact hmem
  settled := by
    refine ⟨[], ?_, fun _ => rfl⟩
    rw [h.settles_none, List.append_nil]

/-- One after another, what is asked for first is settled first. -/
theorem append (h : Settles asked true events) (h' : Settles later succeeded rest) :
    Settles (asked ++ later) succeeded (events ++ rest) := by
  obtain ⟨pending, rfl, hnone⟩ := h.settled
  obtain rfl := hnone rfl
  obtain ⟨pending, hlater, hnone⟩ := h'.settled
  refine ⟨?_, pending, ?_, hnone⟩
  · intro edge hmem
    rw [List.filterMap_append] at hmem
    exact List.mem_append.mpr ((List.mem_append.mp hmem).imp (h.sent_mem edge) (h'.sent_mem edge))
  · rw [List.filterMap_append, List.append_nil, List.append_assoc, ← hlater]

/-- After a failure everything else that was asked for stays unsettled. -/
theorem append_asked (h : Settles asked false events) (later : List RelationStatement) :
    Settles (asked ++ later) false events := by
  obtain ⟨pending, hasked, _⟩ := h.settled
  refine ⟨?_, pending ++ later, ?_, nofun⟩
  · intro edge hmem
    exact List.mem_append_left _ (h.sent_mem edge hmem)
  · rw [← List.append_assoc, ← hasked]

/-- One statement for an edge is all that is sent. -/
theorem single {edge : RelationStatement} {outcome : Outcome}
    (hedge : (Statement.relation edge).edge? = some edge)
    (hsettled : succeeded → edge.isSettledBy outcome) :
    Settles [edge] succeeded [.sent (.relation edge) outcome] := by
  have hsent : edge? (.sent (.relation edge) outcome) = some edge := hedge
  have hdone : settledEdge? (.sent (.relation edge) outcome)
      = if edge.isSettledBy outcome then some edge else none := by
    rw [settledEdge?, hedge, Option.filter_some]
  refine ⟨by simp [hsent], ?_⟩
  cases h : edge.isSettledBy outcome with
  | true =>
    refine ⟨[], ?_, fun _ => rfl⟩
    simp [hdone, h]
  | false =>
    refine ⟨[edge], ?_, ?_⟩
    · simp [hdone, h]
    · intro hok
      exact nomatch h ▸ hsettled hok

/-- What was sent before and settled nothing does not count. -/
theorem prepend (h : Settles asked succeeded rest)
    (hsent : ∀ edge ∈ events.filterMap edge?, edge ∈ asked)
    (hnone : events.filterMap settledEdge? = []) : Settles asked succeeded (events ++ rest) := by
  constructor
  · intro edge hmem
    rw [List.filterMap_append] at hmem
    rcases List.mem_append.mp hmem with hmem | hmem
    · exact hsent edge hmem
    · exact h.sent_mem edge hmem
  · rw [List.filterMap_append, hnone]
    exact h.settled

end Settles

namespace Work

variable {β : Type} {asked later : List RelationStatement} {w : Work α} {f : α → Work β}

/-- Work writes the edges that are asked for, as far as it gets. -/
abbrev LeavesEdges (asked : List RelationStatement) (w : Work α) : Prop :=
  Leaves (fun result events => Settles asked result.isOk events) w

/-- Work that is ensured to send nothing for edges leaves no edges in its trace. -/
theorem writesNoEdge_of_ensures {A : α → Session → Prop} {s : Session}
    (h : Ensures (fun statement => statement.edge? = none) s w A) :
    LeavesFrom s (fun _ events => WritesNoEdge events) w := by
  obtain ⟨events, hjournal, hevents⟩ := h.continues.journal
  exact ⟨events, hjournal, Event.writesNoEdge_of_sent hevents⟩

/-- Work that writes no edge settles all of none. -/
theorem leavesEdges_nil (h : Leaves (fun _ events => WritesNoEdge events) w) :
    LeavesEdges [] w :=
  h.mono fun _ _ => Settles.of_writesNoEdge

/-- What the second part asks for is begun with only when all that the first one asked for is
settled. -/
theorem leavesEdges_bind (h : LeavesEdges asked w) (hf : ∀ a, LeavesEdges later (f a)) :
    LeavesEdges (asked ++ later) (w >>= f) := by
  refine leaves_bind h ?_ ?_
  · intro a events hfirst
    refine (hf a).mono ?_
    intro result rest hsecond
    exact hfirst.append hsecond
  · intro e events hfirst
    exact hfirst.append_asked later

/-- A loop asks for the edges of its items, one item after another. -/
theorem leavesEdges_forM {items : List α} {asked : α → List RelationStatement}
    {g : α → Work PUnit} (h : ∀ item, LeavesEdges (asked item) (g item)) :
    LeavesEdges (items.flatMap asked) (items.forM g) := by
  induction items with
  | nil => exact leavesEdges_nil (leaves_pure rfl)
  | cons item rest ih => exact leavesEdges_bind (h item) fun _ => ih

end Work

/-! ## Changes to relations -/

/-- The edge that an operator asks for. -/
def RelationOperator.edge (table : JoinTable) (owningId relatedId : String) :
    RelationOperator → RelationStatement
  | .add => .link table owningId relatedId
  | .remove => .unlink table owningId relatedId

/-- The edges that a change to a relation of an object asks for. -/
def RelationUpdate.edges (className owningId : String) (update : RelationUpdate) :
    List RelationStatement :=
  update.relatedIds.map fun id => update.operator.edge ⟨className, update.field⟩ owningId id

namespace JoinTables

open Work

variable {tables : JoinTables} {className field owningId relatedId : String}

/-- The join table of a relation is named after the class and the field. -/
theorem require_eq_ok {table : JoinTable} (h : tables.require className field = .ok table) :
    table = ⟨className, field⟩ := by
  unfold require find? at h
  split at h
  next hfound =>
    split at hfound
    · exact Except.ok.inj h ▸ (Option.some.inj hfound).symm
    · cases hfound
  next => cases h

/-- What comes of a statement whose answer does not matter. -/
inductive IsTried (statement : Statement) : Result Unit → List Event → Prop
  | done (count : Nat) : IsTried statement (.ok ()) [.sent statement (.affected count)]
  | failed (e : Error) : IsTried statement (.error e) [.sent statement (.failed e)]

/-- A statement whose answer does not matter is sent once. -/
theorem leaves_tried (statement : Statement) :
    Leaves (IsTried statement) (do let _ ← execute statement) := by
  have hsent : Leaves (fun result events => IsTried statement (result.map fun _ => ()) events)
      (execute statement) := leaves_execute .done .failed
  refine leaves_bind hsent ?_ fun _ _ => id
  intro count events hdone
  refine leaves_pure ?_
  rw [List.append_nil]
  exact hdone

/-- The second time that an edge is sent, after its join table was created, it is settled or fails.
-/
theorem leavesEdges_createAndRetry {table : JoinTable} {edge : RelationStatement}
    (hedge : (Statement.relation edge).edge? = some edge)
    (hsettled : ∀ count, edge.isSettledBy (.affected count)) :
    LeavesEdges [edge] (createAndRetry table (.relation edge)) := by
  have hsends : Sends (fun statement => statement.edge? = none) (Classes.createJoinTable table) :=
    Classes.sends_createJoinTable rfl
  have hcreate : Leaves (fun _ events => WritesNoEdge events) (Classes.createJoinTable table) :=
    fun s => writesNoEdge_of_ensures (hsends s)
  have hretry : LeavesEdges [edge] (do let _ ← execute (.relation edge)) :=
    (leaves_tried _).mono fun _ _ htried => by
      cases htried with
      | done count => exact .single hedge fun _ => hsettled count
      | failed e => exact .single hedge nofun
  refine leavesEdges_bind (leavesEdges_nil (leaves_notify rfl)) fun _ => ?_
  exact leavesEdges_bind (leavesEdges_nil hcreate) fun _ => hretry

/-- Adding an edge asks for this edge. -/
theorem leavesEdges_link : LeavesEdges [.link ⟨className, field⟩ owningId relatedId]
    (tables.link className field owningId relatedId) := by
  refine leaves_bind_ofResult ?_ fun e => ⟨nofun, _, rfl, nofun⟩
  intro table htable
  obtain rfl := require_eq_ok htable
  refine leaves_recover (leaves_tried _) ?_ ?_
  · intro _ _ htried
    cases htried with
    | done count => exact .single rfl fun _ => rfl
  · intro e _ htried
    cases htried with
    | failed =>
      split
      next =>
        -- an edge that finds no join table is sent for a second time
        refine (leavesEdges_createAndRetry rfl fun _ => rfl).mono ?_
        intro result later hretried
        exact hretried.prepend (fun _ => id) rfl
      next => exact leaves_throw (.single rfl nofun)

/-- Removing an edge asks for this edge, and a missing join table settles it. -/
theorem leavesEdges_unlink : LeavesEdges [.unlink ⟨className, field⟩ owningId relatedId]
    (tables.unlink className field owningId relatedId) := by
  refine leaves_bind_ofResult ?_ fun e => ⟨nofun, _, rfl, nofun⟩
  intro table htable
  obtain rfl := require_eq_ok htable
  refine leaves_recover (leaves_tried _) ?_ ?_
  · intro _ _ htried
    cases htried with
    | done count => exact .single rfl fun _ => rfl
  · intro e _ htried
    cases htried with
    | failed =>
      split
      next hundefined => exact leaves_pure (.single rfl fun _ => hundefined)
      next => exact leaves_throw (.single rfl nofun)

/-- A change of an edge asks for the edge that its operator writes. -/
theorem leavesEdges_change (operator : RelationOperator) :
    LeavesEdges [operator.edge ⟨className, field⟩ owningId relatedId]
      (tables.change className owningId field relatedId operator) := by
  cases operator with
  | add => exact leavesEdges_link
  | remove => exact leavesEdges_unlink

/-- The changes to the relations of an object write the edges that they ask for. -/
theorem leavesEdges_applyUpdates (updates : List RelationUpdate) :
    LeavesEdges (updates.flatMap (·.edges className owningId))
      (tables.applyUpdates className owningId updates) := by
  have hupdate : ∀ update : RelationUpdate, LeavesEdges (update.edges className owningId)
      (update.relatedIds.forM fun id =>
        tables.change className owningId update.field id update.operator) := by
    intro update
    rw [RelationUpdate.edges, List.map_eq_flatMap]
    exact leavesEdges_forM fun _ => leavesEdges_change _
  refine leaves_recover (leavesEdges_forM hupdate) (fun _ _ => id) ?_
  intro e events hfailed
  -- the failure is told of and stays one
  have htold : Leaves (fun result later => result = .ok () ∧ later = [])
      (notify (.relationUpdateFailed className owningId e.message)) := leaves_notify ⟨rfl, rfl⟩
  refine leaves_bind htold (fun _ _ hnil => leaves_throw ?_) fun _ _ hnil => nomatch hnil.1
  rw [hnil.2, List.append_nil, List.append_nil]
  exact hfailed

end JoinTables

end ObjectStore
