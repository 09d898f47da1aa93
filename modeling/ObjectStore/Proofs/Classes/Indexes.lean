import ObjectStore.Proofs.Classes.Rewriting

/-!
# Changes of indexes

A submitted set of changes is gone through once: each change is checked against the indexes as they
are by then, and put down as something to create or to delete. The names of a set are all different,
so a change that was gone through does not matter to the check of a later one, and the set is
refused if and only if one of its changes cannot be made to the indexes that the class has
(`answers_foldlM`).

A set that is not refused has a plan: the statements that create, those that delete, and the one
that records what comes out. `changeIndexes_checked` says that the plan is carried out in one
transaction up to the first failure, and that what is recorded and answered are the indexes of the
class with these changes.
-/

namespace ObjectStore.Classes

open Result Work

/-! ## Submitted changes -/

/-- Whether a submitted value deletes its index. -/
def deletes (value : Json) : Bool := value.opTag? == some "Delete"

/-- What a submitted value makes of its index: nothing if it deletes the index, and the columns that
it maps otherwise. -/
def made? (value : Json) : Option (Dict Json) := if deletes value then none else value.obj?

/-- The index that is to be created for a change. -/
def creation? (change : String × Json) : Option IndexSpec :=
  (made? change.2).map fun columns => ⟨change.1, columns.keys⟩

/-- The index that is to be deleted for a change. -/
def deletion? (change : String × Json) : Option String :=
  if deletes change.2 then some change.1 else none

/-- The indexes that changes are made to. -/
def indexesBefore (existing : Dict (Dict Json)) : Dict (Dict Json) :=
  if existing.isEmpty then initialIndexes else existing

/-- The indexes that changes are made to are in order if those of the class are. -/
theorem sorted_indexesBefore {existing : Dict (Dict Json)} (h : existing.Sorted) :
    (indexesBefore existing).Sorted := by
  unfold indexesBefore
  split
  · exact Dict.sorted_singleton _
  · exact h

/-- A change cannot be made to some indexes of a class with some fields. -/
inductive IsRefused (indexes : Dict (Dict Json)) (fields : Dict FieldType) :
    String × Json → Prop
  | missing {name : String} {value : Json} :
    deletes value → indexes.get? name = none → IsRefused indexes fields (name, value)
  | idIndex {value : Json} : deletes value → IsRefused indexes fields (idIndexName, value)
  | exists {name : String} {value : Json} {columns : Dict Json} :
    ¬ deletes value → indexes.get? name = some columns → IsRefused indexes fields (name, value)
  | notMap {name : String} {value : Json} :
    ¬ deletes value → value.obj? = none → IsRefused indexes fields (name, value)
  | unknownField {name column : String} {columns : Object} :
    ¬ deletes (.obj columns) → column ∈ columns.keys → fields.get? column = none →
      IsRefused indexes fields (name, .obj columns)

/-- The check of a change looks at no index but its own. -/
theorem IsRefused.congr {indexes indexes' : Dict (Dict Json)} {fields : Dict FieldType}
    {change : String × Json} (hget : indexes.get? change.1 = indexes'.get? change.1)
    (h : IsRefused indexes fields change) : IsRefused indexes' fields change := by
  cases h with
  | missing hdeletes hnone => exact .missing hdeletes (hget ▸ hnone)
  | idIndex hdeletes => exact .idIndex hdeletes
  | «exists» hdeletes hsome => exact .exists hdeletes (hget ▸ hsome)
  | notMap hdeletes hobj => exact .notMap hdeletes hobj
  | unknownField hdeletes hcolumn hfield => exact .unknownField hdeletes hcolumn hfield

/-- What goes on in the indexes, and what is put down, when changes are made. -/
structure Applied (before after : IndexChanges) (submitted : Object) : Prop where
  get? : ∀ name, after.result.get? name = match submitted.get? name with
    | none => before.result.get? name
    | some value => made? value
  sorted : before.result.Sorted → after.result.Sorted
  created : after.created = before.created ++ submitted.filterMap creation?
  deleted : after.deleted = before.deleted ++ submitted.filterMap deletion?

/-- No changes leave all as it is. -/
theorem Applied.nil (changes : IndexChanges) : Applied changes changes [] :=
  ⟨fun _ => rfl, id, by simp, by simp⟩

/-- A change and those after it are made together, if none of these is of the same index. -/
theorem Applied.cons {before between after : IndexChanges} {name : String} {value : Json}
    {rest : Object} (h : Applied before between [(name, value)]) (h' : Applied between after rest)
    (hname : rest.get? name = none) : Applied before after ((name, value) :: rest) where
  get? other := by
    rw [h'.get?, h.get?]
    by_cases hother : name = other
    · subst hother
      simp [Dict.get?, hname]
    · simp [Dict.get?, hother]
  sorted := h'.sorted ∘ h.sorted
  created := by
    rw [h'.created, h.created, List.append_assoc, ← List.filterMap_append]
    rfl
  deleted := by
    rw [h'.deleted, h.deleted, List.append_assoc, ← List.filterMap_append]
    rfl

/-- What becomes of a set of changes: it is refused for one that cannot be made, or all of them are
made. -/
def Answers (fields : Dict FieldType) (changes : IndexChanges) (submitted : Object)
    (answer : Result IndexChanges) : Prop :=
  (∃ change ∈ submitted, IsRefused changes.result fields change) ∧
      (∃ fault, answer = .error (.invalidQuery fault)) ∨
    (∀ change ∈ submitted, ¬ IsRefused changes.result fields change) ∧
      ∃ after, answer = .ok after ∧ Applied changes after submitted

variable {fields : Dict FieldType} {changes : IndexChanges} {name : String} {value : Json}

/-- A change that cannot be made is refused with its fault. -/
theorem answers_refused {answer : Result IndexChanges} {fault : QueryFault}
    (h : IsRefused changes.result fields (name, value))
    (hanswer : answer = .error (.invalidQuery fault)) :
    Answers fields changes [(name, value)] answer :=
  .inl ⟨⟨_, List.mem_singleton_self _, h⟩, fault, hanswer⟩

/-- A deletion is refused if there is no such index or if it is the index of the ids. -/
theorem answers_delete (hdeletes : deletes value) :
    Answers fields changes [(name, value)] (changes.delete name) := by
  unfold IndexChanges.delete
  split
  next hmissing =>
    have hnone : changes.result.get? name = none := by simpa [Dict.contains] using hmissing
    exact answers_refused (.missing hdeletes hnone) rfl
  next hthere =>
    split
    next hid =>
      subst hid
      exact answers_refused (.idIndex hdeletes) rfl
    next hid =>
      have hallowed : ¬ IsRefused changes.result fields (name, value) := by
        intro hrefused
        cases hrefused with
        | missing _ hnone => simp [Dict.contains, hnone] at hthere
        | idIndex => exact hid rfl
        | «exists» hnot => exact hnot hdeletes
        | notMap hnot => exact hnot hdeletes
        | unknownField hnot => exact hnot hdeletes
      refine .inr ⟨List.forall_mem_singleton.mpr hallowed, _, rfl,
        ?_, fun hsorted => hsorted.erase name, ?_, ?_⟩
      · intro other
        by_cases hother : name = other
        · subst hother
          simp [Dict.get?, made?, hdeletes, Dict.get?_erase_self]
        · simp [Dict.get?, hother, Dict.get?_erase_of_ne (Ne.symm hother)]
      · simp [creation?, made?, hdeletes]
      · simp [deletion?, hdeletes]

/-- A new index is refused if it is there already, if its value maps no columns, or for an unknown
field. -/
theorem answers_create (hdeletes : ¬ deletes value) :
    Answers fields changes [(name, value)] (changes.create fields name value) := by
  unfold IndexChanges.create
  split
  next hthere =>
    obtain ⟨columns, hcolumns⟩ := Dict.contains_iff.mp hthere
    exact answers_refused (.exists hdeletes hcolumns) rfl
  next hmissing =>
    split
    next hobj => exact answers_refused (.notMap hdeletes hobj) rfl
    next columns hobj =>
      obtain rfl : value = .obj columns := by
        cases value with
        | obj => exact congrArg Json.obj (Option.some.inj hobj)
        | null | bool | int | double | str | arr => cases hobj
      split
      next column hcolumn =>
        have hmem : column ∈ columns.keys := List.mem_of_find?_eq_some hcolumn
        have hfield : fields.get? column = none := by
          simpa [Dict.contains] using List.find?_some hcolumn
        exact answers_refused (.unknownField hdeletes hmem hfield) rfl
      next hknown =>
        have hallowed : ¬ IsRefused changes.result fields (name, .obj columns) := by
          intro hrefused
          cases hrefused with
          | missing hdelete => exact hdeletes hdelete
          | idIndex hdelete => exact hdeletes hdelete
          | «exists» _ hsome => simp [Dict.contains, hsome] at hmissing
          | notMap _ hnone => cases hnone
          | unknownField _ hcolumn hfield =>
            have hall := List.find?_eq_none.mp hknown _ hcolumn
            simp [Dict.contains, hfield] at hall
        refine .inr ⟨List.forall_mem_singleton.mpr hallowed, _, rfl,
          ?_, fun hsorted => hsorted.insert name columns, ?_, ?_⟩
        · intro other
          by_cases hother : name = other
          · subst hother
            simp [Dict.get?, made?, hdeletes, Json.obj?]
          · simp [Dict.get?, hother, Dict.get?_insert_of_ne _ _ (Ne.symm hother)]
        · simp [creation?, made?, hdeletes, Json.obj?]
        · simp [deletion?, hdeletes]

/-- One more change is checked against the indexes that are there by then. -/
theorem answers_add (fields : Dict FieldType) (changes : IndexChanges) (change : String × Json) :
    Answers fields changes [change] (changes.add fields change) := by
  unfold IndexChanges.add
  split
  next hdeletes => exact answers_delete hdeletes
  next hdeletes => exact answers_create hdeletes

/-- As no two changes are of one index, all are checked against the indexes before the first. -/
theorem answers_foldlM {submitted : Object} (hnodup : (submitted.map Prod.fst).Nodup)
    (changes : IndexChanges) :
    Answers fields changes submitted (submitted.foldlM (IndexChanges.add fields) changes) := by
  induction submitted generalizing changes with
  | nil => exact .inr ⟨List.forall_mem_nil _, changes, rfl, .nil changes⟩
  | cons change rest ih =>
    obtain ⟨name, value⟩ := change
    obtain ⟨hname, hrest⟩ := List.nodup_cons.mp hnodup
    rw [List.foldlM_cons]
    rcases answers_add fields changes (name, value) with
      ⟨⟨_, hmem, hrefused⟩, fault, hanswer⟩ | ⟨hallowed, between, hanswer, hbetween⟩
    · rw [hanswer]
      obtain rfl := List.mem_singleton.mp hmem
      exact .inl ⟨⟨_, List.mem_cons_self, hrefused⟩, fault, rfl⟩
    · rw [hanswer]
      -- the change left the indexes of the other changes as they were
      have hsame : ∀ change ∈ rest,
          between.result.get? change.1 = changes.result.get? change.1 := by
        intro change hchange
        have hkey : change.1 ∈ rest.map Prod.fst := List.mem_map_of_mem hchange
        have hne : name ≠ change.1 := fun heq => hname (heq ▸ hkey)
        rw [hbetween.get?]
        simp [Dict.get?, hne]
      have hnone : Dict.get? rest name = none := by
        cases hget : Dict.get? rest name with
        | none => rfl
        | some value => exact absurd (List.mem_map_of_mem (Dict.mem_of_get? hget)) hname
      rcases ih hrest between with
        ⟨⟨other, hmem, hrefused⟩, hfailed⟩ | ⟨hothers, after, hafter, happlied⟩
      · exact .inl ⟨⟨other, List.mem_cons_of_mem _ hmem, hrefused.congr (hsame other hmem)⟩,
          hfailed⟩
      · refine .inr ⟨List.forall_mem_cons.mpr ⟨hallowed _ (List.mem_singleton_self _), ?_⟩, after,
          hafter, hbetween.cons happlied hnone⟩
        exact fun other hmem hrefused => hothers other hmem (hrefused.congr (hsame other hmem).symm)

/-! ## The plan -/

/-- The statements for a submitted set of changes after which a class has some indexes. -/
def indexPlan (className : String) (submitted : Object) (after : Dict (Dict Json)) :
    List Statement :=
  (submitted.filterMap creation?).map
      (fun spec => .table (.createIndex spec.name className spec.columns))
    ++ ((submitted.filterMap deletion?).map (fun name => .table (.dropIndex name))
      ++ [.metadata (.setPart className "indexes" (Schema.indexesToJson after))])

/-- A statement succeeded, or was to create an index and found one of its name. -/
def Passes : Sending → Prop
  | (.table (.createIndex ..), .failed e) => e.isState .duplicateTable
  | (_, outcome) => outcome.succeeded

/-- Creating an index sends its statement, and an index that is there already is passed over. -/
theorem carriesOut_createIndex (className : String) (spec : IndexSpec) :
    CarriesOut Passes [.table (.createIndex spec.name className spec.columns)]
      (createIndex className spec) :=
  carriesOut_discard (carriesOut_executeTolerant (fun _ => rfl) fun e => by simp [Passes])

/-- Deleting an index sends its statement. -/
theorem carriesOut_dropIndex (name : String) :
    CarriesOut Passes [.table (.dropIndex name)] (dropIndex name) :=
  carriesOut_discard (carriesOut_execute (fun _ => rfl) fun _ => nofun)

/-- Recording sends its statement. -/
theorem carriesOut_changeMetadata (statement : MetadataStatement) :
    CarriesOut Passes [.metadata statement] (changeMetadata statement) :=
  carriesOut_discard (carriesOut_execute (fun _ => rfl) fun _ => nofun)

/-- Some indexes are those that a class had, with submitted changes. -/
structure IsChangedTo (existing : Dict (Dict Json)) (submitted : Object)
    (after : Dict (Dict Json)) : Prop where
  get? : ∀ name, after.get? name = match submitted.get? name with
    | none => (indexesBefore existing).get? name
    | some value => made? value
  sorted : existing.Sorted → after.Sorted
  keepsIds : ∀ columns, (indexesBefore existing).get? idIndexName = some columns →
    after.get? idIndexName = some columns

/-- Some events are one transaction in which the plan for a submitted set of changes is carried out.
If nothing stops it, the indexes after the changes are recorded. -/
structure Changes (className : String) (submitted : Object) (after : Dict (Dict Json))
    (result : Result (Dict (Dict Json))) (events : List Event) : Prop where
  plan : ∃ depth body, events = .began depth :: body ++ [.closing depth result.isOk] ∧
    CarriedOut Passes (indexPlan className submitted after) result (Event.sendings body)
  answer : ∀ indexes, result = .ok indexes → indexes = after
  records : result.isOk → ∀ c : Catalogue, ∃ tables, (⟨c, []⟩ : Replay).after events
    = ⟨⟨tables, (MetadataStatement.setPart className "indexes" (Schema.indexesToJson after)).done
        c.documents⟩, []⟩

/-- The changes of a checked set are made as planned. -/
theorem carriesOut_makeChanges {submitted : Object} {before after : IndexChanges}
    (hcreated : before.created = []) (hdeleted : before.deleted = [])
    (happlied : Applied before after submitted) (className : String) :
    CarriesOut Passes (indexPlan className submitted after.result)
      (makeChanges className after) := by
  unfold makeChanges indexPlan
  rw [happlied.created, happlied.deleted, hcreated, hdeleted]
  -- the three segments of the plan, in the order in which they are sent
  refine carriesOut_bind (carriesOut_forM (carriesOut_createIndex className)) fun _ => ?_
  refine carriesOut_bind (carriesOut_forM carriesOut_dropIndex) fun _ => ?_
  exact carriesOut_changeMetadata _

/-- A checked set is made in one transaction. -/
theorem leaves_checked {submitted : Object} {before after : IndexChanges}
    (hcreated : before.created = []) (hdeleted : before.deleted = [])
    (happlied : Applied before after submitted) (className : String) :
    Leaves (Changes className submitted after.result) (do
      (makeChanges className after).transaction
      pure after.result) := by
  let write : MetadataStatement :=
    .setPart className "indexes" (Schema.indexesToJson after.result)
  have hbody := (carriesOut_makeChanges hcreated hdeleted happlied className).and
    (writes_makeChanges className after)
  have hmade : Leaves (fun result events => ∃ depth body,
      events = .began depth :: body ++ [.closing depth result.isOk] ∧
        CarriedOut Passes (indexPlan className submitted after.result) result
          (Event.sendings body) ∧ (result.isOk → Event.Write write body))
      (makeChanges className after).transaction :=
    leaves_transaction (hbody.mono fun _ events h depth => ⟨depth, events, rfl, h⟩)
  -- made, the indexes are answered; given up, the failure is
  refine leaves_bind hmade ?_ ?_
  · intro _ events h
    obtain ⟨depth, body, rfl, hcarried, hwrite⟩ := h
    have hkept : Event.KeptWrite write _ := ⟨depth, body, rfl, hwrite rfl⟩
    refine leaves_pure
      ⟨⟨depth, body, List.append_nil _, ?_⟩, fun _ hanswer => (Except.ok.inj hanswer).symm, ?_⟩
    · simpa using hcarried.append (.finished after.result)
    · intro _ c
      rw [List.append_nil]
      exact hkept.after_eq c
  · intro e events h
    obtain ⟨depth, body, rfl, hcarried, -⟩ := h
    refine ⟨⟨depth, body, rfl, ?_⟩, nofun, nofun⟩
    simpa using hcarried.stop []

/-- The index of the ids can neither be deleted nor redefined. -/
theorem get?_idIndex_of_allowed {existing : Dict (Dict Json)} {submitted : Object}
    (hallowed : ∀ change ∈ submitted, ¬ IsRefused (indexesBefore existing) fields change)
    {columns : Dict Json} (hthere : (indexesBefore existing).get? idIndexName = some columns) :
    Dict.get? submitted idIndexName = none := by
  cases hget : Dict.get? submitted idIndexName with
  | none => rfl
  | some value =>
    refine absurd ?_ (hallowed _ (Dict.mem_of_get? hget))
    by_cases hdeletes : deletes value
    · exact .idIndex hdeletes
    · exact .exists hdeletes hthere

/-- A submitted set of changes is refused, before anything is sent, if and only if one of its
changes cannot be made to the indexes of the class. Otherwise the statements for all changes are
sent in one transaction, up to the first failure that may not be passed over, and what is answered
and recorded at the end are the indexes of the class with these changes. -/
theorem changeIndexes_checked {submitted : Object} (hsubmitted : Dict.Sorted submitted)
    (className : String) (existing : Dict (Dict Json)) (fields : Dict FieldType) (s : Session) :
    let run := (changeIndexes className submitted existing fields).run s
    ((∃ fault, run = (.error (.invalidQuery fault), s)) ↔
        ∃ change ∈ submitted, IsRefused (indexesBefore existing) fields change) ∧
      ((∀ change ∈ submitted, ¬ IsRefused (indexesBefore existing) fields change) →
        ∃ after events, IsChangedTo existing submitted after ∧
          run.2.journal = s.journal ++ events ∧
          Changes className submitted after run.1 events) := by
  intro run
  let before : IndexChanges := { result := indexesBefore existing }
  have hrun : run = ((do
      let changes ← Work.ofResult (submitted.foldlM (IndexChanges.add fields) before)
      (makeChanges className changes).transaction
      pure changes.result : Work (Dict (Dict Json)))).run s := rfl
  rcases answers_foldlM hsubmitted.nodup_keys before with
    ⟨hrefused, fault, hanswer⟩ | ⟨hallowed, after, hanswer, happlied⟩
  · rw [hanswer] at hrun
    have hfailed : run = (.error (.invalidQuery fault), s) := hrun
    refine ⟨iff_of_true ⟨fault, hfailed⟩ hrefused, ?_⟩
    intro hallowed
    obtain ⟨change, hmem, hrefused⟩ := hrefused
    exact absurd hrefused (hallowed change hmem)
  · rw [hanswer] at hrun
    obtain ⟨events, hjournal, hchanges⟩ := leaves_checked rfl rfl happlied className s
    have hjournal : run.2.journal = s.journal ++ events := by
      rw [hrun]
      exact hjournal
    have hchanges : Changes className submitted after.result run.1 events := by
      rw [hrun]
      exact hchanges
    have hchanged : IsChangedTo existing submitted after.result := by
      refine ⟨happlied.get?, fun hsorted => happlied.sorted (sorted_indexesBefore hsorted), ?_⟩
      intro columns hthere
      rw [happlied.get?, get?_idIndex_of_allowed hallowed hthere]
      exact hthere
    refine ⟨iff_of_false ?_ ?_, fun _ => ⟨after.result, events, hchanged, hjournal, hchanges⟩⟩
    · intro ⟨fault, hsame⟩
      obtain ⟨depth, body, hevents, -⟩ := hchanges.plan
      rw [hsame, hevents] at hjournal
      simp at hjournal
    · intro ⟨change, hmem, hrefused⟩
      exact hallowed change hmem hrefused

/-- The engine tells that there is an index of a name. -/
def indexThere : Error := .storage "relation \"byMotto\" already exists" (some .duplicateTable)

/-- An index is deleted and another one created, which the engine has already: both are recorded. -/
theorem byCity_and_byMotto_changed :
    let existing : Dict (Dict Json) :=
      [("_id_", [("_id", .int 1)]), ("byCity", [("city", .int 1)])]
    let submitted : Object :=
      [("byCity", .obj [("__op", .str "Delete")]), ("byMotto", .obj [("motto", .int 1)])]
    let s := scripted [] [.error indexThere]
    let run := (changeIndexes "Club" submitted existing [("motto", .string)]).run s
    Dict.Sorted submitted ∧
      (∀ change ∈ submitted, ¬ IsRefused (indexesBefore existing) [("motto", .string)] change) ∧
      run.1 = .ok [("_id_", [("_id", .int 1)]), ("byMotto", [("motto", .int 1)])] ∧
      ∃ after events, IsChangedTo existing submitted after ∧ run.2.journal = events ∧
        Changes "Club" submitted after run.1 events := by
  intro existing submitted s run
  have hok : run.1 = .ok [("_id_", [("_id", .int 1)]), ("byMotto", [("motto", .int 1)])] := rfl
  have hsorted : Dict.Sorted submitted := by decide
  have h := changeIndexes_checked hsorted "Club" existing [("motto", .string)] s
  have hallowed : ∀ change ∈ submitted,
      ¬ IsRefused (indexesBefore existing) [("motto", .string)] change := by
    intro change hmem hrefused
    obtain ⟨fault, hrun⟩ := h.1.mpr ⟨change, hmem, hrefused⟩
    exact nomatch (congrArg Prod.fst hrun).symm.trans hok
  exact ⟨hsorted, hallowed, hok, h.2 hallowed⟩

end ObjectStore.Classes
