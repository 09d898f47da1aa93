import Mathlib.Data.List.Basic
import Mathlib.Data.List.Flatten
import ObjectStore.Proofs.Dict
import ObjectStore.Relation.Edges

/-!
# Changes to relations taken out of an update

The operators of a batch may be batches themselves. `Json.leaves` lists the operators and literals
that a member of an update comes down to, and `RelationUpdate.operations` those of a whole update,
under their keys.

The changes that are collected are those of the relation operators among them, each once and in this
order (`collect_eq`). What remains of the update are the members without relation operators, as they
are (`mem_remaining`), so every other operation is kept if and only if no member holds operations of
both kinds (`extraction_keeps_iff`).
-/

namespace ObjectStore

namespace Json

variable {value operator : Json} {operators : List Json}

/-- The operators of a batch. -/
def batch? (value : Json) : Option (List Json) :=
  if value.opTag? = some "Batch" then some (((value.get? "ops").bind arr?).getD []) else none

/-- A member of an object is smaller than the object. -/
theorem sizeOf_lt_of_get? {key : String} (h : value.get? key = some operator) :
    sizeOf operator < sizeOf value := by
  cases value with
  | obj members =>
    have hmember := List.sizeOf_lt_of_mem (Dict.mem_of_get? h)
    simp only [Prod.mk.sizeOf_spec, obj.sizeOf_spec] at hmember ⊢
    omega
  | null | bool _ | int _ | double _ | str _ | arr _ => cases h

/-- An operator of a batch is smaller than the batch. -/
theorem sizeOf_lt_of_batch? (h : value.batch? = some operators) (hmem : operator ∈ operators) :
    sizeOf operator < sizeOf value := by
  obtain ⟨-, hoperators⟩ := Option.ite_none_right_eq_some.mp h
  cases hops : value.get? "ops" with
  | none =>
    rw [hops] at hoperators
    cases hoperators
    cases hmem
  | some list =>
    rw [hops] at hoperators
    have hlist := sizeOf_lt_of_get? hops
    cases list with
    | arr items =>
      cases hoperators
      have hitem := List.sizeOf_lt_of_mem hmem
      simp only [Option.bind_some, arr?, Option.getD_some] at hitem
      simp only [arr.sizeOf_spec] at hlist
      omega
    | null | bool _ | int _ | double _ | str _ | obj _ =>
      cases hoperators
      cases hmem

/-- The operators and literals that a member of an update comes down to, in written order: a batch
stands for what its operators come down to, and everything else for itself. -/
def leaves (value : Json) : List Json :=
  match _h : value.batch? with
  | none => [value]
  | some operators => operators.attach.flatMap fun operator => leaves operator.1
termination_by sizeOf value
decreasing_by exact sizeOf_lt_of_batch? _h operator.2

/-- Everything but a batch comes down to itself. -/
theorem leaves_of_leaf (h : value.batch? = none) : value.leaves = [value] := by
  rw [leaves]
  split
  next => rfl
  next hbatch => cases hbatch.symm.trans h

/-- A batch comes down to what its operators come down to, in order. -/
theorem leaves_of_batch (h : value.batch? = some operators) :
    value.leaves = operators.flatMap leaves := by
  rw [leaves]
  split
  next hleaf => cases hleaf.symm.trans h
  next hbatch =>
    cases hbatch.symm.trans h
    rw [List.flatMap_subtype fun _ _ => rfl, List.unattach_attach]

/-- What everything but batches has, and a batch has whenever its operators have it, all values
have. -/
theorem batch_induction {P : Json → Prop} (leaf : ∀ value, value.batch? = none → P value)
    (batch : ∀ value operators, value.batch? = some operators →
      (∀ operator ∈ operators, P operator) → P value) (value : Json) : P value :=
  match h : value.batch? with
  | none => leaf value h
  | some operators => batch value operators h fun operator hmem =>
    have := sizeOf_lt_of_batch? h hmem
    batch_induction leaf batch operator
termination_by sizeOf value

/-- The change of edges that an operator on a relation stands for. -/
def relationOperator? (value : Json) : Option RelationOperator :=
  match value.opTag? with
  | some "AddRelation" => some .add
  | some "RemoveRelation" => some .remove
  | _ => none

/-- The id of an object: a text, or the text under the key of ids. -/
def id? (value : Json) : Option String := value.str?.or ((value.get? objectIdField).bind str?)

/-- The objects that an operator lists. -/
def objects (value : Json) : List Json := ((value.get? "objects").bind arr?).getD []

/-- Whether a value is an operator on a relation. -/
def changesEdges (value : Json) : Bool := value.relationOperator?.isSome

/-- Operators on a relation stand beside other operations. -/
def Mixes (value : Json) : Prop :=
  (∃ leaf ∈ value.leaves, leaf.changesEdges) ∧ ∃ leaf ∈ value.leaves, ¬ leaf.changesEdges

end Json

/-- A pointer is not read otherwise than another object. -/
theorem relatedId?_eq (value : Json) : relatedId? value = value.id? := by
  cases value with
  | obj members =>
    have hpointer : ∀ pointer, Pointer.ofJson? (.obj members) = some pointer →
        ((Json.obj members).get? objectIdField).bind Json.str? = some pointer.objectId := by
      intro pointer h
      obtain ⟨className, _, h⟩ := Option.bind_eq_some_iff.mp h
      obtain ⟨objectId, hid, h⟩ := Option.bind_eq_some_iff.mp h
      cases h
      obtain ⟨tagged, htagged, hid⟩ := Option.bind_eq_some_iff.mp hid
      cases (Option.ite_none_right_eq_some.mp htagged).2
      exact hid
    unfold relatedId? Json.id?
    cases h : Pointer.ofJson? (.obj members) with
    | none => rfl
    | some pointer => exact (hpointer pointer h).symm
  | null | bool _ | int _ | double _ | str _ | arr _ => rfl

namespace RelationUpdate

variable {update : Object} {field : String} {value : Json} {operators : List Json}

/-- The change that an operator on a relation makes, with the ids of its objects. -/
def ofLeaf? (field : String) (leaf : Json) : Option RelationUpdate :=
  leaf.relationOperator?.map fun operator => ⟨field, operator, leaf.objects.filterMap Json.id?⟩

/-- The operators and literals of an update under their keys, in key order and then in written
order. -/
def operations (update : Object) : List (String × Json) :=
  update.flatMap fun (key, value) => value.leaves.map (key, ·)

/-- The changes of a batch are those of its operators, one after another. -/
theorem ofBatch_eq (field : String) (members : Object) : ofBatch field members
    = (((members.get? "ops").bind Json.arr?).getD []).flatMap (ofJson field) := by
  have hitems : ∀ operators, ofItems field operators = operators.flatMap (ofJson field) := by
    intro operators
    induction operators with
    | nil => rw [ofItems, List.flatMap_nil]
    | cons operator rest ih => rw [ofItems, ih, List.flatMap_cons]
  induction members with
  | nil => rw [ofBatch]; rfl
  | cons member rest ih =>
    obtain ⟨key, value⟩ := member
    rw [ofBatch, Dict.get?]
    split
    next =>
      cases value with
      | arr operators => rw [ofOperators, hitems]; rfl
      | null | bool _ | int _ | double _ | str _ | obj _ => rw [ofOperators]; rfl; nofun
    next => exact ih

/-- What a batch changes is what its operators change. -/
theorem ofJson_of_batch (h : value.batch? = some operators) :
    ofJson field value = operators.flatMap (ofJson field) := by
  obtain ⟨htag, hoperators⟩ := Option.ite_none_right_eq_some.mp h
  cases value with
  | obj members =>
    rw [ofJson, htag]
    cases hoperators
    exact ofBatch_eq field members
  | null | bool _ | int _ | double _ | str _ | arr _ => cases htag

/-- An operator that is no batch makes one change at most. -/
theorem ofJson_of_leaf (h : value.batch? = none) :
    ofJson field value = (ofLeaf? field value).toList := by
  have hids : relatedId? = Json.id? := funext relatedId?_eq
  cases value with
  | obj members =>
    rw [ofJson, ofLeaf?, Json.relationOperator?]
    split
    next htag => rw [htag, ofOperator, hids]; rfl
    next htag => rw [htag, ofOperator, hids]; rfl
    next htag => exact absurd (h.symm.trans (if_pos htag)) nofun
    next hadd hremove _ =>
      split
      next htag => exact absurd htag hadd
      next htag => exact absurd htag hremove
      next => rfl
  | null | bool _ | int _ | double _ | str _ | arr _ =>
    rw [ofJson]
    rfl
    nofun

/-- The changes of a member of an update are those of the relation operators that it comes down
to. -/
theorem ofJson_eq (field : String) (value : Json) :
    ofJson field value = value.leaves.filterMap (ofLeaf? field) := by
  induction value using Json.batch_induction with
  | leaf value h =>
    rw [ofJson_of_leaf h, Json.leaves_of_leaf h, List.filterMap_cons, List.filterMap_nil]
    cases ofLeaf? field value <;> rfl
  | batch value operators h ih =>
    rw [ofJson_of_batch h, Json.leaves_of_batch h, List.filterMap_flatMap]
    exact List.flatMap_congr ih

/-- A member makes no change if it comes down to no operator on a relation. -/
theorem ofJson_eq_nil_iff :
    ofJson field value = [] ↔ ∀ leaf ∈ value.leaves, ¬ leaf.changesEdges := by
  rw [ofJson_eq, List.filterMap_eq_nil_iff]
  simp only [ofLeaf?, Option.map_eq_none_iff, Json.changesEdges, Option.not_isSome_iff_eq_none]

/-- The changes that are collected are those of the relation operators, in order. -/
theorem collect_eq (update : Object) :
    collect update = (operations update).filterMap fun (key, leaf) => ofLeaf? key leaf := by
  rw [collect, operations, List.filterMap_flatMap]
  refine List.flatMap_congr ?_
  intro (key, value) _
  rw [List.filterMap_map]
  exact ofJson_eq key value

/-- The members that remain are those without operators on a relation, as they are. -/
theorem mem_remaining {key : String} : (key, value) ∈ remaining update
    ↔ (key, value) ∈ update ∧ ∀ leaf ∈ value.leaves, ¬ leaf.changesEdges := by
  rw [remaining, List.mem_filter, List.isEmpty_iff, ofJson_eq_nil_iff]

/-! ## What is kept -/

/-- Lists of parts, some of which lack something that the others have, are equal only if none lacks
anything. -/
theorem flatMap_eq_iff_of_sublist {α β : Type} {f g : α → List β} {items : List α}
    (h : ∀ item ∈ items, (f item).Sublist (g item)) :
    items.flatMap f = items.flatMap g ↔ ∀ item ∈ items, f item = g item := by
  refine ⟨?_, List.flatMap_congr⟩
  intro heq
  induction items with
  | nil => nofun
  | cons item rest ih =>
    obtain ⟨hitem, hrest⟩ := List.forall_mem_cons.mp h
    rw [List.flatMap_cons, List.flatMap_cons] at heq
    have hlength : (f item).length = (g item).length := by
      have hle := hitem.length_le
      have hle' := (List.Sublist.flatMap_right rest hrest).length_le
      have hsum := congrArg List.length heq
      rw [List.length_append, List.length_append] at hsum
      omega
    obtain ⟨hfirst, hothers⟩ := List.append_inj heq hlength
    exact List.forall_mem_cons.mpr ⟨hfirst, ih hrest hothers⟩

/-- The operations of a member that are no operators on a relation. -/
def others (member : String × Json) : List Json :=
  member.2.leaves.filter fun leaf => !leaf.changesEdges

/-- The operations of a member that remain: a member goes as a whole, or not at all. -/
def kept (member : String × Json) : List Json :=
  if ofJson member.1 member.2 = [] then member.2.leaves else []

/-- A member that makes no change has other operations only. -/
theorem others_eq_leaves (h : ofJson field value = []) : others (field, value) = value.leaves := by
  refine List.filter_eq_self.mpr ?_
  intro leaf hmem
  rw [Bool.not_eq_true']
  exact Bool.eq_false_iff.mpr (ofJson_eq_nil_iff.mp h leaf hmem)

/-- Nothing is kept of a member but other operations of it. -/
theorem kept_sublist (member : String × Json) : (kept member).Sublist (others member) := by
  unfold kept
  split
  next h => exact (others_eq_leaves h).symm ▸ List.Sublist.refl _
  next => exact List.nil_sublist _

/-- A member keeps its other operations unless operators on a relation stand beside them. -/
theorem kept_eq_others_iff (member : String × Json) :
    kept member = others member ↔ ¬ member.2.Mixes := by
  obtain ⟨key, value⟩ := member
  unfold kept Json.Mixes
  split
  next h =>
    rw [others_eq_leaves h]
    exact iff_of_true rfl fun ⟨⟨leaf, hmem, hleaf⟩, _⟩ => ofJson_eq_nil_iff.mp h leaf hmem hleaf
  next h =>
    have hsome : ∃ leaf ∈ value.leaves, leaf.changesEdges := by
      by_contra hnone
      exact h (ofJson_eq_nil_iff.mpr fun leaf hmem hleaf => hnone ⟨leaf, hmem, hleaf⟩)
    have hothers : others (key, value) = [] ↔ ¬ ∃ leaf ∈ value.leaves, ¬ leaf.changesEdges := by
      simp [others]
    -- the member goes with all that stands in it
    rw [eq_comm, hothers, not_and]
    exact ⟨fun hnone _ => hnone, fun hnone => hnone hsome⟩

/-- The operations that remain are those kept of each member. -/
theorem operations_remaining (update : Object) :
    operations (remaining update)
      = update.flatMap fun member => (kept member).map (member.1, ·) := by
  induction update with
  | nil => rfl
  | cons member rest ih =>
    obtain ⟨key, value⟩ := member
    rw [List.flatMap_cons, ← ih, kept, remaining, List.filter_cons]
    simp only [List.isEmpty_iff]
    split
    next => rfl
    next => rfl

/-- The other operations of an update are those of each member. -/
theorem filter_operations (update : Object) :
    ((operations update).filter fun (_, leaf) => !leaf.changesEdges)
      = update.flatMap fun member => (others member).map (member.1, ·) := by
  rw [operations, List.filter_flatMap]
  refine List.flatMap_congr ?_
  intro member _
  rw [List.filter_map]
  rfl

/-- All operators on relations are collected, each once, under its key, in key order and then in
written order, with the ids of its objects. The members that remain are those without such
operators, as they are.

Every other operation remains, under its key and in order, if and only if no member mixes operators
on a relation with other operations. -/
theorem extraction_keeps_iff (update : Object) :
    (collect update = (operations update).filterMap fun (key, leaf) => ofLeaf? key leaf)
    ∧ (∀ key value, (key, value) ∈ remaining update
      ↔ (key, value) ∈ update ∧ ∀ leaf ∈ value.leaves, ¬ leaf.changesEdges)
    ∧ (operations (remaining update)
        = ((operations update).filter fun (_, leaf) => !leaf.changesEdges)
      ↔ ∀ member ∈ update, ¬ member.2.Mixes) := by
  refine ⟨collect_eq update, fun _ _ => mem_remaining, ?_⟩
  rw [operations_remaining, filter_operations, flatMap_eq_iff_of_sublist fun member _ =>
    (kept_sublist member).map _]
  refine forall₂_congr ?_
  intro member _
  rw [← kept_eq_others_iff, List.map_inj_right fun _ _ h => (Prod.mk.inj h).2]

/-- An operator that adds an edge to an object. -/
def addition : Json := .obj [("__op", .str "AddRelation"), ("objects", .arr [.str "x"])]

/-- An operator that adds one to a number. -/
def increment : Json := .obj [("__op", .str "Increment"), ("amount", .int 1)]

/-- Both in one batch. -/
def additionAndIncrement : Json :=
  .obj [("__op", .str "Batch"), ("ops", .arr [addition, increment])]

/-- The edge is collected from the batch. Nothing remains of the update, and the increment is
gone. -/
theorem increment_disappears :
    collect [("members", additionAndIncrement)] = [⟨"members", .add, ["x"]⟩]
    ∧ operations [("members", additionAndIncrement)]
      = [("members", addition), ("members", increment)]
    ∧ operations (remaining [("members", additionAndIncrement)])
      ≠ (operations [("members", additionAndIncrement)]).filter
        fun (_, leaf) => !leaf.changesEdges := by
  have hbatch : additionAndIncrement.batch? = some [addition, increment] := rfl
  have hleaves : additionAndIncrement.leaves = [addition, increment] := by
    rw [Json.leaves_of_batch hbatch, List.flatMap_cons, List.flatMap_cons,
      Json.leaves_of_leaf rfl, Json.leaves_of_leaf rfl]
    rfl
  have hoperations : operations [("members", additionAndIncrement)]
      = [("members", addition), ("members", increment)] := by
    rw [operations, List.flatMap_cons]
    dsimp only
    rw [hleaves]
    rfl
  have hremaining : remaining [("members", additionAndIncrement)] = [] := by decide +kernel
  rw [hoperations, hremaining]
  exact ⟨by decide +kernel, rfl, nofun⟩

end RelationUpdate

end ObjectStore
