import Mathlib.Data.List.Perm.Basic
import Mathlib.Tactic.Tauto
import ObjectStore.Proofs.Relation.Edges
import ObjectStore.Proofs.Relation.Lookup

/-!
# Edges that are written together

The edges that an update asks for are independent calls: a store may start all of them at once, and
the engine does each as a whole, whenever it comes to it. `Completes` is what can become of the
edges then, one write after another from those that are in flight.

Writes of different edges do not see each other, and neither do two that both add an edge or both
remove it. Only an edge that is added and removed depends on which of the two is done last. So what
comes out is what the listed order gives, whatever the order was, if and only if the changes do not
contradict each other (`RelationUpdate.completes_as_listed_iff`).
-/

namespace ObjectStore

/-! ## Writes one after another -/

/-- The edges once a statement is done. An edge that exists is left alone when it is added, and so
is one that does not exist when it is removed. -/
def RelationStatement.done (edges : Edges) : RelationStatement → Edges
  | .link table owningId relatedId => fun t owner related =>
    (t = table ∧ owner = owningId ∧ related = relatedId) ∨ edges t owner related
  | .unlink table owningId relatedId => fun t owner related =>
    ¬ (t = table ∧ owner = owningId ∧ related = relatedId) ∧ edges t owner related
  | .owners .. | .related .. => edges

/-- The edges once some statements are done, one after another. -/
def Edges.after (edges : Edges) (writes : List RelationStatement) : Edges :=
  writes.foldl RelationStatement.done edges

/-- Some statements add an edge and remove it. -/
def RelationStatement.Contradict (writes : List RelationStatement) : Prop :=
  ∃ table owningId relatedId,
    .link table owningId relatedId ∈ writes ∧ .unlink table owningId relatedId ∈ writes

/-- Writes that are in flight together leave some edges: any of them may be done next. -/
inductive Completes : List RelationStatement → Edges → Edges → Prop
  | done {edges : Edges} : Completes [] edges edges
  | next {before after : List RelationStatement} {write : RelationStatement}
    {edges final : Edges} :
    Completes (before ++ after) (write.done edges) final →
      Completes (before ++ write :: after) edges final

open RelationStatement

variable {edges final : Edges} {writes order : List RelationStatement}
  {a b write : RelationStatement} {table : JoinTable} {owningId relatedId : String}

theorem Edges.after_concat (edges : Edges) (writes : List RelationStatement)
    (write : RelationStatement) :
    edges.after (writes ++ [write]) = write.done (edges.after writes) := by
  rw [after, List.foldl_append]
  rfl

theorem RelationStatement.Contradict.mono {others : List RelationStatement}
    (h : Contradict writes) (hsubset : writes ⊆ others) : Contradict others := by
  obtain ⟨table, owningId, relatedId, hlink, hunlink⟩ := h
  exact ⟨table, owningId, relatedId, hsubset hlink, hsubset hunlink⟩

/-- An edge may be added before another one is removed or after it. -/
theorem RelationStatement.done_link_unlink {table' : JoinTable} {owningId' relatedId' : String}
    (h : ¬ Contradict [.link table owningId relatedId, .unlink table' owningId' relatedId'])
    (edges : Edges) :
    done (done edges (.link table owningId relatedId)) (.unlink table' owningId' relatedId')
      = done (done edges (.unlink table' owningId' relatedId'))
          (.link table owningId relatedId) := by
  funext t owner related
  have hne : ¬ ((t = table ∧ owner = owningId ∧ related = relatedId) ∧
      t = table' ∧ owner = owningId' ∧ related = relatedId') := by
    rintro ⟨⟨rfl, rfl, rfl⟩, rfl, rfl, rfl⟩
    exact h ⟨t, owner, related, by simp, by simp⟩
  simp only [done, eq_iff_iff]
  tauto

/-- Two statements that do not contradict each other may be done in either order. -/
theorem RelationStatement.done_comm (h : ¬ Contradict [a, b]) (edges : Edges) :
    done (done edges a) b = done (done edges b) a := by
  cases a with
  | link =>
    cases b with
    | link => exact funext₃ fun _ _ _ => propext or_left_comm
    | unlink => exact done_link_unlink h edges
    | owners | related => rfl
  | unlink =>
    cases b with
    | link => exact (done_link_unlink (fun h' => h (h'.mono (by simp))) edges).symm
    | unlink => exact funext₃ fun _ _ _ => propext and_left_comm
    | owners | related => rfl
  | owners | related => rfl

/-! ## Writes in flight -/

/-- Writes in flight are done in some order, and may be done in any. -/
theorem completes_iff :
    Completes writes edges final ↔ ∃ order, order.Perm writes ∧ final = edges.after order := by
  constructor
  · intro h
    induction h with
    | done => exact ⟨[], .refl _, rfl⟩
    | @next before after write edges final _ ih =>
      obtain ⟨order, hperm, rfl⟩ := ih
      exact ⟨write :: order, (hperm.cons write).trans List.perm_middle.symm, rfl⟩
  · rintro ⟨order, hperm, rfl⟩
    induction order generalizing writes edges with
    | nil => exact hperm.nil_eq ▸ .done
    | cons write rest ih =>
      -- whatever is done next is taken out of the writes where it stands
      obtain ⟨before, after, rfl⟩ := List.append_of_mem (hperm.subset List.mem_cons_self)
      exact .next (ih (hperm.trans List.perm_middle).cons_inv)

/-- Any of the writes may be the last one. -/
theorem exists_completes_last (edges : Edges) (h : write ∈ writes) :
    ∃ earlier : Edges, Completes writes edges (write.done earlier) := by
  obtain ⟨before, after, rfl⟩ := List.append_of_mem h
  refine ⟨edges.after (before ++ after), completes_iff.mpr ⟨before ++ after ++ [write], ?_, ?_⟩⟩
  · rw [List.append_assoc]
    exact (List.perm_append_singleton write after).append_left before
  · rw [Edges.after_concat]

/-- An edge that is added and removed may be there in the end or not. -/
theorem exists_completes_either (edges : Edges) (hlink : .link table owningId relatedId ∈ writes)
    (hunlink : .unlink table owningId relatedId ∈ writes) :
    (∃ final, Completes writes edges final ∧ final table owningId relatedId) ∧
      ∃ final, Completes writes edges final ∧ ¬ final table owningId relatedId := by
  obtain ⟨earlier, hadded⟩ := exists_completes_last edges hlink
  obtain ⟨earlier', hremoved⟩ := exists_completes_last edges hunlink
  exact ⟨⟨_, hadded, .inl ⟨rfl, rfl, rfl⟩⟩, ⟨_, hremoved, fun h => h.1 ⟨rfl, rfl, rfl⟩⟩⟩

/-- Writes leave the same edges in every order if and only if none contradicts another. -/
theorem completes_eq_after_iff :
    (∀ edges final, Completes writes edges final → final = edges.after writes) ↔
      ¬ Contradict writes := by
  constructor
  · -- an edge that was not there is there in one order and not in another
    rintro hsame ⟨table, owningId, relatedId, hlink, hunlink⟩
    obtain ⟨⟨added, hadded, hmem⟩, removed, hremoved, hnot⟩ :=
      exists_completes_either (fun _ _ _ => False) hlink hunlink
    rw [hsame _ _ hadded, ← hsame _ _ hremoved] at hmem
    exact hnot hmem
  · intro hnone edges final hcompletes
    obtain ⟨order, hperm, rfl⟩ := completes_iff.mp hcompletes
    refine hperm.foldl_eq' (fun a ha b hb edges => done_comm (fun h => hnone (h.mono ?_)) edges)
      edges
    simpa using ⟨hperm.subset ha, hperm.subset hb⟩

/-! ## Changes to relations -/

namespace RelationUpdate

variable {updates : List RelationUpdate} {className owner : String}

/-- Some changes to the relations of an object add an edge and remove it. -/
def Contradict (updates : List RelationUpdate) : Prop :=
  ∃ added ∈ updates, ∃ removed ∈ updates, added.operator = .add ∧ removed.operator = .remove ∧
    added.field = removed.field ∧ ∃ id ∈ added.relatedIds, id ∈ removed.relatedIds

theorem mem_edges_iff (operator : RelationOperator) :
    operator.edge table owner relatedId ∈ updates.flatMap (·.edges className owningId) ↔
      ∃ update ∈ updates, update.operator = operator ∧ ⟨className, update.field⟩ = table ∧
        owningId = owner ∧ relatedId ∈ update.relatedIds := by
  have hedge : ∀ update : RelationUpdate,
      operator.edge table owner relatedId ∈ update.edges className owningId ↔
        update.operator = operator ∧ ⟨className, update.field⟩ = table ∧ owningId = owner ∧
          relatedId ∈ update.relatedIds := by
    rintro ⟨field, op, ids⟩
    cases op <;> cases operator <;>
      simp [edges, RelationOperator.edge, and_left_comm, and_comm, and_assoc]
  simp only [List.mem_flatMap, hedge]

theorem contradict_edges_iff :
    RelationStatement.Contradict (updates.flatMap (·.edges className owningId)) ↔
      Contradict updates := by
  constructor
  · rintro ⟨table, owner, id, hlink, hunlink⟩
    obtain ⟨added, hadded, hadd, rfl, rfl, hid⟩ := (mem_edges_iff .add).mp hlink
    obtain ⟨removed, hremoved, hremove, htable, -, hid'⟩ :=
      (mem_edges_iff .remove).mp hunlink
    exact ⟨added, hadded, removed, hremoved, hadd, hremove, (JoinTable.mk.inj htable).2.symm, id,
      hid, hid'⟩
  · rintro ⟨added, hadded, removed, hremoved, hadd, hremove, hfield, id, hid, hid'⟩
    refine ⟨⟨className, added.field⟩, owningId, id,
      (mem_edges_iff .add).mpr ⟨added, hadded, hadd, rfl, rfl, hid⟩,
      (mem_edges_iff .remove).mpr
        ⟨removed, hremoved, hremove, hfield ▸ rfl, rfl, hid'⟩⟩

/-- A store that waits for each edge settles the edges of some changes as they are listed. If it
starts them all at once, they leave what the listed order gives, whatever order they are done in and
whatever edges there were, if and only if no edge is both added and removed. -/
theorem completes_as_listed_iff (tables : JoinTables) (className owningId : String)
    (updates : List RelationUpdate) :
    let writes := updates.flatMap (·.edges className owningId)
    let applied := tables.applyUpdates className owningId updates
    (∀ s, (applied.run s).1.isOk → ∃ events, (applied.run s).2.journal = s.journal ++ events ∧
        events.filterMap Event.settledEdge? = writes) ∧
      ((∀ edges final, Completes writes edges final → final = edges.after writes) ↔
        ¬ Contradict updates) := by
  intro writes applied
  refine ⟨?_, completes_eq_after_iff.trans (not_congr contradict_edges_iff)⟩
  intro s hok
  obtain ⟨events, hjournal, hsettles⟩ := JoinTables.leavesEdges_applyUpdates updates s
  obtain ⟨pending, hasked, hnone⟩ := hsettles.settled
  rw [hnone hok, List.append_nil] at hasked
  exact ⟨events, hjournal, hasked.symm⟩

/-- The operators of a batch on the members of a team. -/
def ofMembers (operators : List (String × String)) : Object :=
  [("members", .obj [("__op", .str "Batch"), ("ops", .arr (operators.map fun (operator, id) =>
    .obj [("__op", .str operator), ("objects", .arr [.str id])]))])]

/-- A session with an engine that does whatever it is sent. -/
def obliging : Session where
  rowAnswers := []
  changeAnswers := []
  now := ⟨0, 0⟩
  randomBytes := fun _ => Vector.replicate 10 0

/-- A member that is replaced by another one has gone in the end, and the other one is there,
whichever of the two writes comes first. -/
theorem replacedMember_completes_as_listed :
    let updates := collect (ofMembers [("RemoveRelation", "u"), ("AddRelation", "v")])
    let members : JoinTable := ⟨"Team", "members"⟩
    let writes : List RelationStatement := [.unlink members "t" "u", .link members "t" "v"]
    let applied := JoinTables.applyUpdates [members] "Team" "t" updates
    ((applied.run obliging).1.isOk = true ∧
      ∃ events, (applied.run obliging).2.journal = obliging.journal ++ events ∧
        events.filterMap Event.settledEdge? = writes) ∧
      ¬ Contradict updates ∧
      ∀ edges final, Completes writes edges final → final = edges.after writes := by
  intro updates members writes applied
  have hupdates : updates = [⟨"members", .remove, ["u"]⟩, ⟨"members", .add, ["v"]⟩] := rfl
  have hnone : ¬ Contradict updates := by
    rw [hupdates]
    simp [Contradict]
  have hok : (applied.run obliging).1.isOk = true := rfl
  obtain ⟨hsettled, hiff⟩ := completes_as_listed_iff [members] "Team" "t" updates
  exact ⟨⟨hok, hsettled obliging hok⟩, hnone, hiff.mpr hnone⟩

/-- A member that is added and then removed is listed as gone in the end, and may stay. -/
theorem removedMember_may_stay :
    let updates := collect (ofMembers [("AddRelation", "u"), ("RemoveRelation", "u")])
    let writes := updates.flatMap (·.edges "Team" "t")
    let none : Edges := fun _ _ _ => False
    ∃ final, Completes writes none final ∧ final ⟨"Team", "members"⟩ "t" "u" ∧
      ¬ none.after writes ⟨"Team", "members"⟩ "t" "u" := by
  intro updates writes none
  have hwrites :
      writes = [.link ⟨"Team", "members"⟩ "t" "u", .unlink ⟨"Team", "members"⟩ "t" "u"] := rfl
  have hlink : .link ⟨"Team", "members"⟩ "t" "u" ∈ writes := by simp [hwrites]
  have hunlink : .unlink ⟨"Team", "members"⟩ "t" "u" ∈ writes := by simp [hwrites]
  obtain ⟨⟨final, hcompletes, hmem⟩, -⟩ := exists_completes_either none hlink hunlink
  exact ⟨final, hcompletes, hmem, fun h => by simp [hwrites, Edges.after, done] at h⟩

end RelationUpdate

end ObjectStore
