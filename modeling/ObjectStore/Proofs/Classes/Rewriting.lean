import ObjectStore.Proofs.Classes.Catalogue
import ObjectStore.Proofs.Classes.Tolerance
import ObjectStore.Proofs.Dict
import ObjectStore.Proofs.Json.Canonical
import ObjectStore.Proofs.Result

/-!
# Rewriting what is recorded of a class

Fields are deleted, and indexes changed, in what a caller knows of the class, and what comes out is
written over what is recorded. The caller may have learned that before others changed the class, so
what they recorded in the meantime is written over as well.

`Rewriting.wanted` is what the recorded document should become: itself, without the named fields or
with the submitted changes to its indexes. `Rewriting.stores_wanted_iff` shows that the document
becomes so if and only if it agrees with what the caller knew in everything that the rewriting is
not about.
-/

namespace ObjectStore

/-! ## Documents -/

namespace Object

/-- A schema document without some of its fields. -/
def withoutFields (document : Object) (names : List String) : Object :=
  match Dict.get? document "fields" with
  | some (.obj fields) => Dict.insert document "fields" (.obj (Dict.without fields names))
  | _ => document

/-- The indexes that a schema document records, or those of a class that has recorded none. -/
def indexes (document : Object) : Object :=
  let recorded := ((Dict.get? document "indexes").bind Json.obj?).getD []
  if recorded.isEmpty then Dict.mapValues .obj Classes.initialIndexes else recorded

/-- Indexes with a submitted change: one is deleted or created. -/
def withChange (indexes : Object) (member : String × Json) : Object :=
  if member.2.opTag? == some "Delete" then Dict.erase indexes member.1
  else Dict.insert indexes member.1 member.2

/-- Indexes with submitted changes. -/
def withChanges (indexes submitted : Object) : Object := submitted.foldl withChange indexes

variable {d d' document : Object} {submitted : Object} {name : String}

/-- A change keeps to the index that it names. -/
theorem get?_withChange_of_ne {member : String × Json} (h : name ≠ member.1) :
    Dict.get? (d.withChange member) name = Dict.get? d name := by
  unfold withChange
  split
  · exact Dict.get?_erase_of_ne h
  · exact Dict.get?_insert_of_ne d _ h

/-- What becomes of the index that a change names does not depend on the indexes before. -/
theorem get?_withChange_self (d d' : Object) (member : String × Json) :
    Dict.get? (d.withChange member) member.1 = Dict.get? (d'.withChange member) member.1 := by
  unfold withChange
  split
  · rw [Dict.get?_erase_self, Dict.get?_erase_self]
  · rw [Dict.get?_insert_self, Dict.get?_insert_self]

/-- Changes keep to the indexes that they name. -/
theorem get?_withChanges_of_notMem (h : name ∉ Dict.keys submitted) :
    Dict.get? (d.withChanges submitted) name = Dict.get? d name := by
  induction submitted generalizing d with
  | nil => rfl
  | cons member rest ih =>
    obtain ⟨hne, hrest⟩ := not_or.mp (mt List.mem_cons.mpr h)
    have hlater : Dict.get? ((d.withChange member).withChanges rest) name
        = Dict.get? (d.withChange member) name := ih hrest
    exact hlater.trans (get?_withChange_of_ne hne)

/-- What becomes of an index that changes name does not depend on the indexes before. -/
theorem get?_withChanges_of_mem (h : name ∈ Dict.keys submitted) :
    Dict.get? (d.withChanges submitted) name = Dict.get? (d'.withChanges submitted) name := by
  induction submitted generalizing d d' with
  | nil => exact absurd h List.not_mem_nil
  | cons member rest ih =>
    by_cases hrest : name ∈ Dict.keys rest
    · exact ih hrest
    · obtain rfl : name = member.1 := (List.mem_cons.mp h).resolve_right hrest
      calc Dict.get? (d.withChanges (member :: rest)) member.1
        _ = Dict.get? (d.withChange member) member.1 := get?_withChanges_of_notMem hrest
        _ = Dict.get? (d'.withChange member) member.1 := get?_withChange_self d d' member
        _ = Dict.get? (d'.withChanges (member :: rest)) member.1 :=
          (get?_withChanges_of_notMem hrest).symm

/-- Changed indexes are still in the order of their names. -/
theorem sorted_withChanges (h : Dict.Sorted d) (submitted : Object) :
    Dict.Sorted (d.withChanges submitted) := by
  induction submitted generalizing d with
  | nil => exact h
  | cons member rest ih =>
    refine ih ?_
    unfold withChange
    split
    · exact h.erase _
    · exact h.insert _ _

/-- Changed indexes are the same if and only if those that are not named were. -/
theorem withChanges_eq_iff (h : Dict.Sorted d) (h' : Dict.Sorted d') (submitted : Object) :
    d.withChanges submitted = d'.withChanges submitted ↔
      Dict.without d (Dict.keys submitted) = Dict.without d' (Dict.keys submitted) := by
  constructor
  · intro heq
    refine (h.without _).ext (h'.without _) ?_
    intro name
    rw [Dict.get?_without, Dict.get?_without]
    split
    · rfl
    next hname =>
      rw [← get?_withChanges_of_notMem hname, heq, get?_withChanges_of_notMem hname]
  · intro heq
    refine (sorted_withChanges h _).ext (sorted_withChanges h' _) ?_
    intro name
    by_cases hname : name ∈ Dict.keys submitted
    · exact get?_withChanges_of_mem hname
    · have hget := congrArg (fun d => Dict.get? d name) heq
      simp only [Dict.get?_without, if_neg hname] at hget
      rw [get?_withChanges_of_notMem hname, get?_withChanges_of_notMem hname, hget]

/-- The indexes of a document are sorted if what it records is. -/
theorem sorted_indexes (h : ∀ recorded, Dict.get? document "indexes" = some (.obj recorded) →
    Dict.Sorted recorded) : Dict.Sorted document.indexes := by
  unfold indexes
  dsimp only
  split
  · exact Dict.sorted_singleton _
  · cases hget : Dict.get? document "indexes" with
    | none => exact Dict.sorted_nil
    | some value =>
      cases value with
      | obj recorded => exact h recorded hget
      | null | bool | int | double | str | arr => exact Dict.sorted_nil

/-- The indexes of a canonical document are sorted. -/
theorem Canonical.sorted_indexes (h : document.Canonical) : Dict.Sorted document.indexes := by
  refine Object.sorted_indexes ?_
  intro recorded hget
  have hrecorded : Object.Canonical recorded := canonical_iff.mpr (h.get? hget)
  exact hrecorded.sorted

end Object

/-- A schema without some fields is recorded as its document without them. -/
theorem Schema.toJson_withoutFields (schema : Schema) (names : List String) (document : Object)
    (h : schema.toJson = .obj document) :
    (Classes.withoutFields schema names).toJson = .obj (document.withoutFields names) := by
  obtain rfl := Json.obj.inj h
  have hfields : Document.ofDict FieldType.toJson (names.foldl Dict.erase schema.fields)
      = .obj (Dict.without (Dict.mapValues FieldType.toJson schema.fields) names) := by
    rw [Document.ofDict, ← Dict.mapValues_without]
    rfl
  -- the parts of a document are in the order of their names
  have hpermissions : "classLevelPermissions" < "className" := by decide
  have hlater : ¬ "fields" < "classLevelPermissions" ∧ ¬ "fields" < "className" := by decide
  have hindexes : ¬ "indexes" < "classLevelPermissions" ∧ ¬ "indexes" < "className" ∧
      ¬ "indexes" < "fields" := by decide
  simp only [Classes.withoutFields, toJson, hfields]
  cases schema.permissions <;> cases schema.indexes.isEmpty <;>
    simp [Object.withoutFields, Json.ofEntries, Dict.ofList, Dict.insert, Dict.get?,
      Document.present, Document.omitIf, Document.ofDict, hpermissions, hlater, hindexes]

namespace Classes

open Result

/-! ## What comes out of submitted changes -/

/-- A submitted change is made in what comes out of the changes before it. -/
theorem mapValues_result_add {fields : Dict FieldType} {changes after : IndexChanges}
    {member : String × Json} (h : changes.add fields member = .ok after) :
    Dict.mapValues Json.obj after.result
      = Object.withChange (Dict.mapValues .obj changes.result) member := by
  obtain ⟨name, value⟩ := member
  unfold IndexChanges.add at h
  unfold Object.withChange
  split at h
  next hdelete =>
    unfold IndexChanges.delete at h
    split at h
    · exact nomatch h
    split at h
    · exact nomatch h
    · obtain rfl := Except.ok.inj h
      rw [if_pos hdelete, Dict.mapValues_erase]
  next hdelete =>
    unfold IndexChanges.create at h
    split at h
    · exact nomatch h
    split at h
    · exact nomatch h
    next columns hcolumns =>
      obtain rfl : value = .obj columns := by
        cases value with
        | obj => exact congrArg Json.obj (Option.some.inj hcolumns)
        | null | bool | int | double | str | arr => exact nomatch hcolumns
      split at h
      · exact nomatch h
      · obtain rfl := Except.ok.inj h
        rw [if_neg hdelete, Dict.mapValues_insert]

/-- What comes out of submitted changes is what there was with each of them made. -/
theorem mapValues_result_ofSubmitted {submitted : Object} {existing : Dict (Dict Json)}
    {fields : Dict FieldType} {changes : IndexChanges}
    (h : IndexChanges.ofSubmitted submitted existing fields = .ok changes) :
    Dict.mapValues Json.obj changes.result
      = Object.withChanges (Object.indexes [("indexes", Schema.indexesToJson existing)])
        submitted := by
  -- what comes out so far is any at all, for the induction
  have hfold : ∀ (submitted : Object) (before after : IndexChanges),
      submitted.foldlM (IndexChanges.add fields) before = .ok after →
        Dict.mapValues Json.obj after.result
          = Object.withChanges (Dict.mapValues .obj before.result) submitted := by
    intro submitted
    induction submitted with
    | nil =>
      intro before after h
      obtain rfl := pure_eq_ok.mp h
      rfl
    | cons member rest ih =>
      intro before after h
      rw [List.foldlM_cons] at h
      obtain ⟨between, hadd, hrest⟩ := bind_eq_ok.mp h
      rw [ih between after hrest, mapValues_result_add hadd]
      rfl
  rw [hfold submitted _ changes h]
  cases existing <;> rfl

end Classes

/-! ## Events around the write -/

/-- A statement leaves what is recorded of the classes alone. -/
def Statement.SparesDocuments (statement : Statement) : Prop :=
  ∀ c, (statement.done c).documents = c.documents

namespace Event

/-- Some events leave what is recorded of the classes alone, and no transaction open or failed. -/
def SpareDocuments (events : List Event) : Prop :=
  ∀ c transactions, ∃ tables,
    (⟨c, transactions⟩ : Replay).after events = ⟨{ c with tables }, transactions⟩

/-- Some events succeed in one change of the metadata table. -/
def Write (statement : MetadataStatement) (events : List Event) : Prop :=
  ∃ earlier outcome later, events = earlier ++ .sent (.metadata statement) outcome :: later ∧
    outcome.succeeded = true ∧ SpareDocuments earlier ∧ SpareDocuments later

/-- Some events succeed in one change of the metadata table, in a transaction that is kept. -/
def KeptWrite (statement : MetadataStatement) (events : List Event) : Prop :=
  ∃ depth body, events = .began depth :: body ++ [.kept depth] ∧ Write statement body

variable {events later : List Event} {statement : Statement} {outcome : Outcome}
  {write : MetadataStatement}

/-- Where nothing happens, nothing becomes of what is recorded. -/
theorem spareDocuments_nil : SpareDocuments [] := fun c _ => ⟨c.tables, rfl⟩

/-- What is recorded is left alone by events one after another if each part leaves it alone. -/
theorem SpareDocuments.append (h : SpareDocuments events) (h' : SpareDocuments later) :
    SpareDocuments (events ++ later) := by
  intro c transactions
  obtain ⟨tables, hafter⟩ := h c transactions
  obtain ⟨tables', hafter'⟩ := h' { c with tables } transactions
  refine ⟨tables', ?_⟩
  rw [Replay.after_append, hafter, hafter']

/-- A statement that spares the documents spares them where it succeeds. -/
theorem spareDocuments_sent (h : statement.SparesDocuments) (hok : outcome.succeeded = true) :
    SpareDocuments [.sent statement outcome] := by
  intro c transactions
  refine ⟨(statement.done c).tables, ?_⟩
  rw [Replay.after_cons, Replay.next_succeeded hok, Replay.after_nil, ← h c]

/-- A statement under a guard may also fail. -/
theorem spareDocuments_guard (h : statement.SparesDocuments) (depth : Nat) (outcome : Outcome) :
    SpareDocuments [.began depth, .sent statement outcome, .closing depth outcome.succeeded] := by
  intro c transactions
  rw [Replay.after_savepoint, Replay.after_nil]
  split
  · refine ⟨(statement.done c).tables, ?_⟩
    rw [← h c]
  · exact ⟨c.tables, rfl⟩

/-- A statement that succeeds is a write of its own. -/
theorem write_sent (hok : outcome.succeeded = true) :
    Write write [.sent (.metadata write) outcome] :=
  ⟨[], outcome, [], rfl, hok, spareDocuments_nil, spareDocuments_nil⟩

/-- A write stays one if more is done behind it. -/
theorem Write.append (h : Write write events) (h' : SpareDocuments later) :
    Write write (events ++ later) := by
  obtain ⟨earlier, outcome, rest, rfl, hok, hearlier, hrest⟩ := h
  exact ⟨earlier, outcome, rest ++ later, by simp, hok, hearlier, hrest.append h'⟩

/-- A write in a transaction that is kept is all that becomes of what is recorded. -/
theorem KeptWrite.after_eq (h : KeptWrite write events) (c : Catalogue) :
    ∃ tables, (⟨c, []⟩ : Replay).after events = ⟨⟨tables, write.done c.documents⟩, []⟩ := by
  obtain ⟨depth, body, rfl, earlier, outcome, later, rfl, hsucceeded, hearlier, hlater⟩ := h
  obtain ⟨tables, hbefore⟩ := hearlier c [⟨c, false⟩]
  obtain ⟨tables', hafter⟩ := hlater ⟨tables, write.done c.documents⟩ [⟨c, false⟩]
  have hsent : (⟨⟨tables, c.documents⟩, [⟨c, false⟩]⟩ : Replay).after
      (.sent (.metadata write) outcome :: later)
        = ⟨⟨tables', write.done c.documents⟩, [⟨c, false⟩]⟩ := by
    rw [Replay.after_cons, Replay.next_succeeded hsucceeded]
    exact hafter
  refine ⟨tables', ?_⟩
  rw [List.cons_append, Replay.after_cons, Replay.after_append, Replay.after_append]
  -- the transaction was opened on the catalogue itself, and is closed by keeping what is there
  change (((⟨c, [⟨c, false⟩]⟩ : Replay).after earlier).after _).after [.kept depth] = _
  rw [hbefore, hsent]
  rfl

/-- A write stays one if more is done before it. -/
theorem SpareDocuments.append_write (h : SpareDocuments events) (h' : Write write later) :
    Write write (events ++ later) := by
  obtain ⟨earlier, outcome, rest, rfl, hok, hearlier, hrest⟩ := h'
  exact ⟨events ++ earlier, outcome, rest, by simp, hok, h.append hearlier, hrest⟩

end Event

namespace Work

open Event (SpareDocuments Write)

variable {α β : Type} {w : Work α} {f : α → Work β} {write : MetadataStatement}

/-- If work succeeds, it left what is recorded of the classes alone. -/
def SparesDocuments (w : Work α) : Prop :=
  Leaves (fun result events => result.isOk → SpareDocuments events) w

/-- If work succeeds, it made one change of the metadata table. -/
def Writes (write : MetadataStatement) (w : Work α) : Prop :=
  Leaves (fun result events => result.isOk → Write write events) w

/-- If both parts of some work succeed, what the first leaves behind stands before what the second
does. -/
theorem leaves_bind_of_isOk {P P' R : List Event → Prop}
    (h : Leaves (fun result events => result.isOk → P events) w)
    (hf : ∀ a, Leaves (fun result events => result.isOk → P' events) (f a))
    (hjoin : ∀ events later, P events → P' later → R (events ++ later)) :
    Leaves (fun result events => result.isOk → R events) (w >>= f) := by
  refine leaves_bind h ?_ ?_
  · intro a events hevents
    refine (hf a).mono ?_
    intro result later hlater hok
    exact hjoin events later (hevents rfl) (hlater hok)
  · intro e events _
    nofun

/-- Doing nothing leaves the documents alone. -/
theorem sparesDocuments_pure (a : α) : SparesDocuments (pure a : Work α) :=
  leaves_pure fun _ => Event.spareDocuments_nil

/-- Work leaves the documents alone if both its parts do. -/
theorem sparesDocuments_bind (h : SparesDocuments w) (hf : ∀ a, SparesDocuments (f a)) :
    SparesDocuments (w >>= f) :=
  leaves_bind_of_isOk h hf fun _ _ hevents hlater => hevents.append hlater

/-- A loop leaves the documents alone if what it does for each item does. -/
theorem sparesDocuments_forM {items : List α} {g : α → Work PUnit}
    (h : ∀ item, SparesDocuments (g item)) : SparesDocuments (items.forM g) := by
  induction items with
  | nil => exact sparesDocuments_pure _
  | cons item rest ih => exact sparesDocuments_bind (h item) fun _ => ih

/-- A statement that spares the documents can be sent. -/
theorem sparesDocuments_execute {statement : Statement} (h : statement.SparesDocuments) :
    SparesDocuments (execute statement) := by
  refine leaves_execute ?_ ?_
  · intro count _
    exact Event.spareDocuments_sent h rfl
  · intro e
    nofun

/-- A statement that spares the documents can be sent under a guard, and may fail there. -/
theorem sparesDocuments_executeTolerant {statement : TableStatement} (tolerated : List SqlState)
    (h : (Statement.table statement).SparesDocuments) :
    SparesDocuments (executeTolerant statement tolerated) := by
  -- the guard spares the documents whatever is answered, as a failure is rolled back in it
  have hguard : Leaves (fun _ events => SpareDocuments events)
      (execute (.table statement)).transaction := by
    refine leaves_transaction (leaves_execute ?_ ?_)
    · intro count depth
      exact Event.spareDocuments_guard h depth (.affected count)
    · intro e depth
      exact Event.spareDocuments_guard h depth (.failed e)
  have hsent : Leaves (fun _ events => SpareDocuments events) (do
      let _ ← (execute (.table statement)).transaction
      pure true) := by
    refine leaves_bind hguard ?_ fun _ _ hevents => hevents
    intro count events hevents
    exact leaves_pure (hevents.append Event.spareDocuments_nil)
  refine leaves_recover hsent (fun _ _ hevents _ => hevents) ?_
  intro e events hevents
  split
  · refine leaves_bind (Q := fun _ later => later = []) (leaves_notify rfl) ?_ fun _ _ _ => nofun
    rintro _ _ rfl
    exact leaves_pure fun _ => hevents.append Event.spareDocuments_nil
  · exact leaves_throw nofun

/-- Work writes if its first part does and its second part leaves the documents alone. -/
theorem writes_bind (h : Writes write w) (hf : ∀ a, SparesDocuments (f a)) :
    Writes write (w >>= f) :=
  leaves_bind_of_isOk h hf fun _ _ hevents hlater => hevents.append hlater

/-- Work writes if its first part leaves the documents alone and its second part writes. -/
theorem writes_bind_of_spares (h : SparesDocuments w) (hf : ∀ a, Writes write (f a)) :
    Writes write (w >>= f) :=
  leaves_bind_of_isOk h hf fun _ _ hevents hlater => hevents.append_write hlater

/-- If a transaction around work that writes succeeds, it was kept. -/
theorem leaves_transaction_of_writes (h : Writes write w) :
    Leaves (fun result events => result.isOk → Event.KeptWrite write events) w.transaction := by
  refine leaves_transaction (h.mono ?_)
  intro result events hwrite depth hok
  refine ⟨depth, events, ?_, hwrite hok⟩
  rw [Event.closing, if_pos hok]

/-- Another result changes nothing of what is left behind. -/
theorem leaves_bind_pure {P : List Event → Prop} {b : β}
    (h : Leaves (fun result events => result.isOk → P events) w) :
    Leaves (fun result events => result.isOk → P events) (w >>= fun _ => pure b) := by
  have hpure : Leaves (fun result later => result.isOk → later = []) (pure b : Work β) :=
    leaves_pure fun _ => rfl
  refine leaves_bind_of_isOk h (fun _ => hpure) ?_
  rintro events _ hevents rfl
  rwa [List.append_nil]

end Work

namespace Classes

open Work

/-! ## Steps -/

/-- A change of the metadata table is a write. -/
theorem writes_changeMetadata (write : MetadataStatement) :
    Writes write (changeMetadata write) := by
  have hsent : Writes write (Work.execute (.metadata write)) :=
    leaves_execute (fun _ _ => Event.write_sent rfl) fun _ => nofun
  exact writes_bind hsent fun _ => sparesDocuments_pure _

/-- Dropping a join table leaves the documents alone, as these are in another table. -/
theorem sparesDocuments_dropJoinTable (table : JoinTable) :
    SparesDocuments (dropTable table.name) := by
  have hdone : (Statement.table (.dropTable table.name)).SparesDocuments := by
    intro c
    rw [Statement.done, TableStatement.done_dropJoinTable]
  exact sparesDocuments_bind (sparesDocuments_execute hdone) fun _ => sparesDocuments_pure _

/-- Dropping columns leaves the documents alone. -/
theorem sparesDocuments_dropColumns (className : String) (columns : List String) :
    SparesDocuments (dropColumns className columns) :=
  sparesDocuments_bind (sparesDocuments_executeTolerant _ fun _ => rfl) fun _ =>
    sparesDocuments_pure _

/-- Creating an index leaves the documents alone. -/
theorem sparesDocuments_createIndex (className : String) (spec : IndexSpec) :
    SparesDocuments (createIndex className spec) :=
  sparesDocuments_bind (sparesDocuments_executeTolerant _ fun _ => rfl) fun _ =>
    sparesDocuments_pure _

/-- Dropping an index leaves the documents alone. -/
theorem sparesDocuments_dropIndex (name : String) : SparesDocuments (dropIndex name) :=
  sparesDocuments_bind (sparesDocuments_execute fun _ => rfl) fun _ => sparesDocuments_pure _

/-- What is done in a transaction for changes of indexes that were checked. -/
def makeChanges (className : String) (changes : IndexChanges) : Work Unit := do
  changes.created.forM (createIndex className)
  changes.deleted.forM dropIndex
  setIndexes className changes.result

/-- What comes out of changes of indexes is written. -/
theorem writes_makeChanges (className : String) (changes : IndexChanges) :
    Writes (.setPart className "indexes" (Schema.indexesToJson changes.result))
      (makeChanges className changes) := by
  have hcreated : SparesDocuments (changes.created.forM (createIndex className)) :=
    sparesDocuments_forM (sparesDocuments_createIndex className)
  have hdeleted : SparesDocuments (changes.deleted.forM dropIndex) :=
    sparesDocuments_forM sparesDocuments_dropIndex
  refine writes_bind_of_spares hcreated fun _ => ?_
  refine writes_bind_of_spares hdeleted fun _ => ?_
  exact writes_changeMetadata _

/-! ## Rewritings -/

/-- A rewriting of what is recorded of a class, from what a caller knows of it. -/
inductive Rewriting where
  | deleteFields (schema : Schema) (names : List String)
  | changeIndexes (className : String) (submitted : Object) (existing : Dict (Dict Json))
    (sorted : existing.Sorted) (fields : Dict FieldType)

namespace Rewriting

/-- The change of the classes that a rewriting is. -/
def change : Rewriting → Change
  | .deleteFields schema names => .deleteFields schema names
  | .changeIndexes className submitted existing _ fields =>
    .changeIndexes className submitted existing fields

/-- The class that is rewritten. -/
def className : Rewriting → String
  | .deleteFields schema _ => schema.className
  | .changeIndexes className .. => className

/-- What the caller knows of the document of the class. -/
def known : Rewriting → Object
  | .deleteFields schema _ => schema.toJson.obj?.getD []
  | .changeIndexes _ _ existing _ _ => [("indexes", Schema.indexesToJson existing)]

/-- What should become of a document. -/
def wanted (document : Object) : Rewriting → Object
  | .deleteFields _ names => document.withoutFields names
  | .changeIndexes _ submitted .. =>
    Dict.insert document "indexes" (.obj (document.indexes.withChanges submitted))

/-- What becomes of a document. -/
def written (document : Object) (r : Rewriting) : Object :=
  match r with
  | .deleteFields _ names => r.known.withoutFields names
  | .changeIndexes _ submitted .. =>
    Dict.insert document "indexes" (.obj (r.known.indexes.withChanges submitted))

/-- What a rewriting does not ask to change in a document. -/
def rest (document : Object) : Rewriting → Object
  | .deleteFields _ names => document.withoutFields names
  | .changeIndexes _ submitted .. => Dict.without document.indexes (Dict.keys submitted)

/-- A document becomes what it should if and only if the caller knew what is not to be changed. -/
theorem written_eq_wanted_iff (r : Rewriting) {document : Object} (h : document.Canonical) :
    r.written document = r.wanted document ↔ r.rest document = r.rest r.known := by
  cases r with
  | deleteFields schema names => exact eq_comm
  | changeIndexes className submitted existing sorted fields =>
    have hknown : Dict.Sorted (Object.indexes [("indexes", Schema.indexesToJson existing)]) :=
      Object.sorted_indexes fun _ hget =>
        Json.obj.inj (Option.some.inj hget) ▸ sorted.mapValues Json.obj
    -- the documents differ in their indexes at most
    refine (Dict.insert_inj.trans (Json.obj.injEq ..).to_iff).trans ?_
    rw [known, Object.withChanges_eq_iff hknown h.sorted_indexes]
    exact eq_comm

/-- A statement turns the document of the class into what is written. -/
def IsWrittenBy (r : Rewriting) (write : MetadataStatement) : Prop :=
  ∀ documents document, documents r.className = some (some (.obj document)) →
    write.done documents r.className = some (some (.obj (r.written document)))

/-- A rewriting that succeeds writes once, in its transaction. -/
theorem leaves_run (r : Rewriting) : Leaves (fun result events => result.isOk →
      ∃ write, Event.KeptWrite write events ∧ r.IsWrittenBy write) r.change.run := by
  cases r with
  | deleteFields schema names =>
    let r := Rewriting.deleteFields schema names
    have hdrops : ∀ relations : List (String × FieldType), SparesDocuments
        (relations.forM fun field => dropTable (JoinTable.mk schema.className field.1).name) :=
      fun _ => sparesDocuments_forM fun _ => sparesDocuments_dropJoinTable _
    have hkept : Leaves (fun result events => result.isOk →
        Event.KeptWrite (.replace (withoutFields schema names)) events)
        (Classes.deleteFields schema names) := by
      refine leaves_bind_pure (leaves_transaction_of_writes ?_)
      refine writes_bind (writes_changeMetadata _) fun _ => ?_
      split
      · exact sparesDocuments_bind (sparesDocuments_dropColumns _ _) fun _ => hdrops _
      · exact hdrops _
    have hwritten : r.IsWrittenBy (.replace (withoutFields schema names)) := by
      intro documents document hdocument
      change documents schema.className = _ at hdocument
      have hjson := schema.toJson_withoutFields names r.known rfl
      refine (Function.update_self ..).trans ?_
      rw [hjson, withoutFields, hdocument]
      rfl
    exact (leaves_bind_pure hkept).mono fun _ _ h hok => ⟨_, h hok, hwritten⟩
  | changeIndexes className submitted existing sorted fields =>
    let r := Rewriting.changeIndexes className submitted existing sorted fields
    refine leaves_bind_pure (leaves_bind_ofResult ?_ fun _ => nofun)
    intro changes hchanges
    have hwritten : r.IsWrittenBy
        (.setPart className "indexes" (Schema.indexesToJson changes.result)) := by
      intro documents document hdocument
      change documents className = _ at hdocument
      have hindexes := mapValues_result_ofSubmitted hchanges
      refine (Function.update_self ..).trans ?_
      rw [hdocument, Schema.indexesToJson, Document.ofDict, hindexes]
      rfl
    have hkept := leaves_transaction_of_writes (writes_makeChanges className changes)
    exact leaves_bind_pure (hkept.mono fun _ _ h hok => ⟨_, h hok, hwritten⟩)

/-- A rewriting that succeeds changes the metadata table once, in a transaction that is kept.
Whatever others have done until that statement runs, the document that is recorded then becomes what
it should if and only if it agrees with what the caller knew in all that the rewriting does not ask
to change. -/
theorem stores_wanted_iff (r : Rewriting) (s : Session) (hok : (r.change.run.run s).1.isOk = true) :
    ∃ earlier write outcome later,
      (r.change.run.run s).2.journal
        = s.journal ++ (earlier ++ .sent (.metadata write) outcome :: later) ∧
      (∀ c, ∃ tables, (⟨c, []⟩ : Replay).after earlier = ⟨{ c with tables }, [⟨c, false⟩]⟩) ∧
      ∀ (c before : Catalogue) (document : Object), document.Canonical →
        c.documents r.className = some (some (.obj document)) →
          ∃ final stored, (⟨c, [⟨before, false⟩]⟩ : Replay).after
              (.sent (.metadata write) outcome :: later) = ⟨final, []⟩ ∧
            final.documents r.className = some (some (.obj stored)) ∧
            (stored = r.wanted document ↔ r.rest document = r.rest r.known) := by
  obtain ⟨events, hjournal, hevents⟩ := leaves_run r s
  obtain ⟨write, ⟨depth, body, rfl, hwrite⟩, hwritten⟩ := hevents hok
  obtain ⟨earlier, outcome, later, rfl, hsucceeded, hearlier, hlater⟩ := hwrite
  refine ⟨.began depth :: earlier, write, outcome, later ++ [.kept depth], ?_, ?_, ?_⟩
  · rw [hjournal]
    simp
  · intro c
    exact hearlier c [⟨c, false⟩]
  · intro c before document hcanonical hdocument
    obtain ⟨tables, hafter⟩ :=
      hlater (Statement.done c (.metadata write)) [⟨before, false⟩]
    refine ⟨{ Statement.done c (.metadata write) with tables }, r.written document, ?_,
      hwritten _ _ hdocument, r.written_eq_wanted_iff hcanonical⟩
    rw [Replay.after_cons, Replay.next_succeeded hsucceeded, Replay.after_append, hafter]
    rfl

/-- A caller that knows of a field only. -/
def club : Schema := { className := "Club", fields := [("motto", .string)] }

/-- A field is deleted from the document that the caller knows. -/
theorem deleteMotto_stores_wanted :
    let r := Rewriting.deleteFields club ["motto"]
    let s := scripted [] []
    (r.change.run.run s).1.isOk = true ∧ r.known.Canonical ∧
      r.wanted r.known = [("className", .str "Club"), ("fields", .obj [])] ∧
      ∃ write outcome later, .sent (.metadata write) outcome ∈ (r.change.run.run s).2.journal ∧
        ∀ c before : Catalogue, c.documents "Club" = some (some (.obj r.known)) →
          ∃ final, (⟨c, [⟨before, false⟩]⟩ : Replay).after
              (.sent (.metadata write) outcome :: later) = ⟨final, []⟩ ∧
            final.documents "Club" = some (some (.obj (r.wanted r.known))) := by
  intro r s
  have hok : (r.change.run.run s).1.isOk = true := rfl
  have hcanonical : r.known.Canonical :=
    Object.canonical_iff.mpr (Json.canonical_of_isCanonical (by decide))
  obtain ⟨earlier, write, outcome, later, hjournal, -, hstores⟩ := stores_wanted_iff r s hok
  refine ⟨hok, hcanonical, rfl, write, outcome, later, hjournal ▸ by simp, ?_⟩
  intro c before hknown
  obtain ⟨final, stored, hafter, hstored, hiff⟩ := hstores c before r.known hcanonical hknown
  exact ⟨final, hafter, hiff.mpr rfl ▸ hstored⟩

/-- A document in which others have recorded a field and an index on it. -/
def clubDocument : Object :=
  [("className", .str "Club"),
    ("fields", .obj
      [("city", .obj [("type", .str "String")]), ("motto", .obj [("type", .str "String")])]),
    ("indexes", .obj [("byCity", .obj [("city", .int 1)])])]

/-- Deleting another field writes over both, and creating another index writes over the index. -/
theorem unawareCaller_writes_over :
    let c : Catalogue := ⟨{"Club"}, fun _ => some (some (.obj clubDocument))⟩
    let deleting := Rewriting.deleteFields club ["motto"]
    let creating := Rewriting.changeIndexes "Club" [("byMotto", .obj [("motto", .int 1)])] []
      Dict.sorted_nil club.fields
    let stored (r : Rewriting) :=
      ((⟨c, []⟩ : Replay).after (r.change.run.run (scripted [] [])).2.journal).now.documents "Club"
    (deleting.change.run.run (scripted [] [])).1.isOk = true ∧
      stored deleting = some (some (.obj [("className", .str "Club"), ("fields", .obj [])])) ∧
      deleting.wanted clubDocument = [("className", .str "Club"),
        ("fields", .obj [("city", .obj [("type", .str "String")])]),
        ("indexes", .obj [("byCity", .obj [("city", .int 1)])])] ∧
      stored deleting ≠ some (some (.obj (deleting.wanted clubDocument))) ∧
      (creating.change.run.run (scripted [] [])).1.isOk = true ∧
      (stored creating).map (·.map (·.get? "indexes")) = some (some (some (.obj
        [("_id_", .obj [("_id", .int 1)]), ("byMotto", .obj [("motto", .int 1)])]))) ∧
      Dict.get? (creating.wanted clubDocument) "indexes" = some (.obj
        [("byCity", .obj [("city", .int 1)]), ("byMotto", .obj [("motto", .int 1)])]) ∧
      stored creating ≠ some (some (.obj (creating.wanted clubDocument))) := by
  intro c deleting creating stored
  have hstored : (stored creating).map (·.map (·.get? "indexes")) = some (some (some (.obj
    [("_id_", .obj [("_id", .int 1)]), ("byMotto", .obj [("motto", .int 1)])]))) := rfl
  have hwanted : Dict.get? (creating.wanted clubDocument) "indexes" = some (.obj
    [("byCity", .obj [("city", .int 1)]), ("byMotto", .obj [("motto", .int 1)])]) := rfl
  refine ⟨rfl, rfl, rfl, nofun, rfl, hstored, hwanted, ?_⟩
  intro heq
  rw [heq] at hstored
  have hsame := hwanted.symm.trans (Option.some.inj (Option.some.inj hstored))
  simp at hsame

end Rewriting

end Classes

end ObjectStore
