import ObjectStore.Proofs.Access.Defaults
import ObjectStore.Proofs.Objects.Records
import ObjectStore.Proofs.Request.Sending

/-!
# Which calls leave records

A call that creates or updates objects makes records of the rows that it inserts and leaves records
of those that it changes, or it does not, and which of the two is known from what it writes
(`sent_keepsRecords_iff`).

A new object is completed before it is inserted: it gets an id, and permission columns open to all,
where it has none. So it is a record unless it erases one of the three by itself, or takes a
permission column for a relation (`isRecord_iff`). Updates complete nothing. One that does not erase
a permission column and reaches no forbidden key by a dotted one leaves a record of a record; one
that inserts what it did not match inserts what its query and itself describe, which has no
permission columns unless they do (`upsert_inserts_no_record`).
-/

namespace ObjectStore

open Result Update

/-! ## Keys of what is stored -/

/-- A document passes validation if no key inside a value is forbidden. -/
theorem Update.validateNestedKeys_eq_ok {object : Object} :
    validateNestedKeys object = .ok () ↔ ∀ member ∈ object, hasNestedKeys member.2 = true := by
  unfold validateNestedKeys
  split
  next h => exact iff_of_true rfl (List.all_eq_true.mp h)
  next h => exact iff_of_false nofun fun hall => h (List.all_eq_true.mpr hall)

/-- Lists of texts pass validation. -/
theorem Update.hasNestedKeys_ofStrings (texts : List String) :
    hasNestedKeys (.ofStrings texts) = true := by
  change itemsHaveNestedKeys (texts.map .str) = true
  induction texts with
  | nil => rfl
  | cons text rest ih => exact ih

/-- Dates pass validation. -/
theorem Update.hasNestedKeys_ofDate (iso : String) : hasNestedKeys (.ofDate iso) = true := by
  have hsorted : Dict.Sorted [(typeKey, Json.str "Date"), ("iso", .str iso)] := by
    change [typeKey, "iso"].Pairwise (· < ·)
    decide
  have hdate : Json.ofDate iso = .obj [(typeKey, .str "Date"), ("iso", .str iso)] :=
    congrArg Json.obj hsorted.nil_merge
  have hkeys : isNestedKey typeKey = true ∧ isNestedKey "iso" = true := by decide
  simp [hdate, hasNestedKeys, membersHaveNestedKeys, hkeys]

namespace RelationUpdate

variable {object : Object} {name : String} {value : Json}

/-- What erases its column is no change to a relation. -/
theorem ofJson_of_erases (h : erases value = true) : ofJson name value = [] := by
  cases value with
  | null => rfl
  | obj members =>
    have htag : (Json.obj members).opTag? = some "Delete" := beq_iff_eq.mp h
    rw [ofJson, htag]
    rfl
  | bool | int | double | str | arr => rfl

/-- What remains without operators on relations is in order. -/
theorem sorted_remaining (hs : object.Sorted) : (remaining object).Sorted :=
  List.Pairwise.sublist (List.filter_sublist.map _) hs

/-- A member remains if it is no operator on a relation. -/
theorem get?_remaining (hs : object.Sorted) :
    (remaining object).get? name = some value
      ↔ object.get? name = some value ∧ ofJson name value = [] := by
  rw [(sorted_remaining hs).get?_eq_some_iff, hs.get?_eq_some_iff, remaining, List.mem_filter,
    List.isEmpty_iff]

end RelationUpdate

namespace Request

open Access Work Statement Objects

variable {store : Store} {className name : String} {schema : Schema} {caller : Caller} {s : Session}
  {submitted stored object : Object} {now : Timestamp} {value : Json} {statement : Statement}

/-! ## Creating -/

/-- An object is stored with its `ACL` taken apart, open columns added, and all keys in it checked.
-/
theorem storedForm_eq_ok (h : storedForm submitted = .ok stored) :
    ∃ columned, toColumns submitted = .ok columned ∧ stored = withOpenColumns columned
      ∧ ∀ member ∈ stored, hasNestedKeys member.2 = true := by
  obtain ⟨columned, hcolumned, h⟩ := bind_eq_ok.mp h
  obtain ⟨_, hvalid, h⟩ := bind_eq_ok.mp h
  obtain rfl := pure_eq_ok.mp h
  exact ⟨columned, hcolumned, rfl, validateNestedKeys_eq_ok.mp hvalid⟩

namespace IsCompleted

/-- Completing an object leaves all fields but the id and the dates. -/
theorem get?_of_notMem (h : IsCompleted schema now stored object)
    (hname : name ∉ [objectIdField, createdAtField, updatedAtField]) :
    object.get? name = stored.get? name := by
  obtain ⟨id, iso, _, rfl⟩ := h
  rw [List.mem_cons, not_or] at hname
  rw [get?_foldl_withDefault fun hmem => hname.2 (List.mem_filter.mp hmem).1,
    get?_withDefault_of_ne hname.1]

/-- A completed object has the id that was submitted, or a new one. -/
theorem get?_objectId (h : IsCompleted schema now stored object) :
    ∃ id, object.get? objectIdField = some ((stored.get? objectIdField).getD (.str id)) := by
  obtain ⟨id, iso, _, rfl⟩ := h
  have hname : objectIdField ∉ [createdAtField, updatedAtField] := by decide
  refine ⟨id, ?_⟩
  rw [get?_foldl_withDefault fun hmem => hname (List.mem_filter.mp hmem).1, get?_withDefault_self]

/-- A completed object is in order. -/
theorem sorted (h : IsCompleted schema now stored object) (hs : stored.Sorted) : object.Sorted := by
  obtain ⟨id, iso, _, rfl⟩ := h
  exact sorted_foldl_withDefault (sorted_withDefault hs)

/-- Completing adds nothing that would not pass validation. -/
theorem hasNestedKeys_of_mem (h : IsCompleted schema now stored object)
    (hstored : ∀ member ∈ stored, hasNestedKeys member.2 = true) {member : String × Json}
    (hmem : member ∈ object) : hasNestedKeys member.2 = true := by
  obtain ⟨id, iso, _, rfl⟩ := h
  rcases mem_foldl_withDefault hmem with hdate | hmem
  · exact hdate ▸ hasNestedKeys_ofDate iso
  · rcases mem_withDefault hmem with rfl | hmem
    · rfl
    · exact hstored member hmem

end IsCompleted

/-- An object that is submitted makes a record: it does not erase its id, and without an `ACL` it
neither erases a permission column nor takes it for a relation. -/
structure CreatesRecord (schema : Schema) (submitted : Object) : Prop where
  column : schema.columnType? objectIdField ≠ none
  id : ∀ value, submitted.get? objectIdField = some value → erases value = false
  groups : submitted.get? aclField = none → ∀ name ∈ [readColumn, writeColumn], ∀ value,
    submitted.get? name = some value → erases value = false ∧ RelationUpdate.ofJson name value = []

/-- A new object has something for a permission column if it has an `ACL`, or nothing that erases
the column or is taken for a relation. -/
theorem supplied_groups_iff (hs : submitted.Sorted) (hstored : storedForm submitted = .ok stored)
    (hobject : IsCompleted schema now (RelationUpdate.remaining stored) object)
    (hname : name ∈ [readColumn, writeColumn]) :
    (∃ value, (name, value) ∈ object ∧ erases value = false) ↔
      (submitted.get? aclField = none → ∀ value, submitted.get? name = some value →
        erases value = false ∧ RelationUpdate.ofJson name value = []) := by
  obtain ⟨columned, hcolumned, rfl, -⟩ := storedForm_eq_ok hstored
  have hsorted : (withOpenColumns columned).Sorted :=
    sorted_foldl_withDefault (sorted_toColumns hcolumned hs)
  have hother : name ∉ [objectIdField, createdAtField, updatedAtField] := by
    simp only [List.mem_cons, List.not_mem_nil, or_false] at hname
    rcases hname with rfl | rfl <;> decide
  -- what the columns are, before operators on relations are taken out
  have hcolumn : (withOpenColumns columned).get? name
      = some ((columned.get? name).getD (.ofStrings [publicGroup])) :=
    get?_foldl_withDefault_of_mem hname
  have hobject : ∀ value, (name, value) ∈ object ↔
      (columned.get? name).getD (.ofStrings [publicGroup]) = value
        ∧ RelationUpdate.ofJson name value = [] := by
    intro value
    rw [← (hobject.sorted (RelationUpdate.sorted_remaining hsorted)).get?_eq_some_iff,
      hobject.get?_of_notMem hother, RelationUpdate.get?_remaining hsorted, hcolumn,
      Option.some.injEq]
  have hlist : ∀ groups, erases (.ofStrings groups) = false
      ∧ RelationUpdate.ofJson name (.ofStrings groups) = [] := fun _ => ⟨rfl, rfl⟩
  simp only [hobject]
  obtain ⟨hacl, heq⟩ | ⟨hacl, groups, heq⟩ := get?_toColumns hcolumned hname
  · rw [heq]
    cases submitted.get? name with
    | none => exact iff_of_true ⟨_, ⟨rfl, (hlist _).2⟩, (hlist _).1⟩ fun _ => nofun
    | some value => simp [hacl, and_comm]
  · rw [heq]
    exact iff_of_true ⟨_, ⟨rfl, (hlist _).2⟩, (hlist _).1⟩ fun h => absurd h hacl

/-- A new object has an id unless it erases it. -/
theorem supplied_id_iff (hs : submitted.Sorted) (hstored : storedForm submitted = .ok stored)
    (hobject : IsCompleted schema now (RelationUpdate.remaining stored) object) :
    (∃ value, (objectIdField, value) ∈ object ∧ erases value = false) ↔
      ∀ value, submitted.get? objectIdField = some value → erases value = false := by
  obtain ⟨columned, hcolumned, rfl, -⟩ := storedForm_eq_ok hstored
  have hsorted : (withOpenColumns columned).Sorted :=
    sorted_foldl_withDefault (sorted_toColumns hcolumned hs)
  have hkept : (withOpenColumns columned).get? objectIdField = submitted.get? objectIdField :=
    (get?_foldl_withDefault (by decide)).trans (get?_toColumns_of_ne hcolumned (by decide))
  have hheld : ∀ value,
      (RelationUpdate.remaining (withOpenColumns columned)).get? objectIdField = some value ↔
        submitted.get? objectIdField = some value
          ∧ RelationUpdate.ofJson objectIdField value = [] :=
    fun value => by rw [RelationUpdate.get?_remaining hsorted, hkept]
  obtain ⟨id, hid⟩ := hobject.get?_objectId
  simp only [← (hobject.sorted (RelationUpdate.sorted_remaining hsorted)).get?_eq_some_iff, hid,
    Option.some.injEq, exists_eq_left']
  constructor
  · intro h value hget
    by_cases hrelation : RelationUpdate.ofJson objectIdField value = []
    · rwa [(hheld value).mpr ⟨hget, hrelation⟩] at h
    · exact Bool.eq_false_iff.mpr fun herases =>
        hrelation (RelationUpdate.ofJson_of_erases herases)
  · intro h
    cases hget : (RelationUpdate.remaining (withOpenColumns columned)).get? objectIdField with
    | none => rfl
    | some value => exact h value ((hheld value).mp hget).1

/-- An object that is inserted for a submitted one makes a record if this does. -/
theorem isRecord_iff (hs : submitted.Sorted) (hstored : storedForm submitted = .ok stored)
    (hobject : IsCompleted schema now (RelationUpdate.remaining stored) object) :
    IsRecord schema.forStorage object ↔ CreatesRecord schema submitted := by
  have hid := supplied_id_iff hs hstored hobject
  have hcolumn := schema.columnType?_objectId
  constructor
  · rintro ⟨hsupplied, -⟩
    have hobjectId := hsupplied objectIdField List.mem_cons_self
    refine ⟨hcolumn ▸ hobjectId.1, hid.mp hobjectId.2, ?_⟩
    intro hacl name hname
    have hgroups := hsupplied name (List.mem_cons_of_mem _ hname)
    exact (supplied_groups_iff hs hstored hobject hname).mp hgroups.2 hacl
  · intro hcreates
    constructor
    · intro name hname
      rcases List.mem_cons.mp hname with rfl | hname
      · exact ⟨hcolumn ▸ hcreates.column, hid.mpr hcreates.id⟩
      · exact ⟨by simp [schema.columnType?_groups hname],
          (supplied_groups_iff hs hstored hobject hname).mpr fun hacl =>
            hcreates.groups hacl name hname⟩
    · intro name value fresh hmem hfresh _
      -- all that is stored was validated, and what is added to it has no such keys
      obtain ⟨columned, _, rfl, hkeys⟩ := storedForm_eq_ok hstored
      have hremaining : ∀ member ∈ RelationUpdate.remaining (withOpenColumns columned),
          hasNestedKeys member.2 = true := fun member hmember =>
        hkeys member (List.mem_filter.mp hmember).1
      exact hasNestedKeys_of_freshOf hfresh (hobject.hasNestedKeys_of_mem hremaining hmem)

/-! ## Updating -/

/-- All keys of what an update writes may stand where they do. -/
theorem hasNestedKeys_of_updates {query prepared written : Object}
    (h : RowCall.Updates className caller s query submitted prepared written) :
    ∀ member ∈ written, hasNestedKeys member.2 = true := by
  obtain ⟨stored, hstored, htimed⟩ := h.written_eq
  obtain ⟨_, hvalid, hcolumns⟩ := bind_eq_ok.mp hstored
  have hkeys := validateNestedKeys_eq_ok.mp hvalid
  have hstored : ∀ member ∈ stored, hasNestedKeys member.2 = true := by
    intro member hmem
    rcases mem_toColumns hcolumns hmem with hmem | ⟨groups, heq⟩
    · exact hkeys member hmem
    · exact heq ▸ hasNestedKeys_ofStrings groups
  unfold IsTimed at htimed
  split at htimed
  · obtain ⟨iso, _, rfl⟩ := htimed
    intro member hmem
    rcases Dict.mem_insert hmem with rfl | hmem
    · exact hasNestedKeys_ofDate iso
    · exact hstored member hmem
  · exact htimed ▸ hstored

/-! ## Both -/

/-- A call that writes objects. -/
inductive Writing where
  | create (submitted : Object)
  | update (query submitted : Object) (options : UpdateOptions)

namespace Writing

/-- What a call does. -/
def run (store : Store) (className : String) (caller : Caller) : Writing → Work Unit
  | .create submitted => do let _ ← Request.create store className submitted caller
  | .update query submitted options => do
    let _ ← Request.update store className query submitted options caller

/-- The document that a client sends to be written. -/
def document : Writing → Object
  | .create submitted | .update _ submitted _ => submitted

/-- What a call writes leaves records where it is written: a new object makes one by itself, an
object that an update describes together with its query makes one, or the members of an update leave
one of a row. -/
def LeavesRecords (call : Writing) (className : String) (caller : Caller) (s : Session) :
    Statement → Prop
  | .insert .. =>
    match call with
    | .create submitted => CreatesRecord (s.schemaOf className) submitted
    | .update query submitted _ => ∃ prepared written,
      RowCall.Updates className caller s query submitted prepared written
        ∧ IsRecord (s.schemaOf className).forStorage (described prepared written)
  | .rows _ =>
    match call with
    | .create _ => True
    | .update query submitted _ => ∃ prepared written,
      RowCall.Updates className caller s query submitted prepared written
        ∧ ∀ member ∈ written, IsLegalMember member
  | .aggregate .. | .relation _ | .metadata _ | .table _ => True

end Writing

/-- An update is prepared to one query and writes one thing. -/
theorem updates_iff {query prepared written : Object} {p : Object → Object → Prop}
    (h : RowCall.Updates className caller s query submitted prepared written) :
    (∃ prepared written, RowCall.Updates className caller s query submitted prepared written
      ∧ p prepared written) ↔ p prepared written := by
  refine ⟨?_, fun hp => ⟨prepared, written, h, hp⟩⟩
  rintro ⟨prepared', written', h', hp⟩
  obtain rfl : prepared = prepared' := Except.ok.inj (h.prepared_eq.symm.trans h'.prepared_eq)
  obtain ⟨stored, hstored, htimed⟩ := h.written_eq
  obtain ⟨stored', hstored', htimed'⟩ := h'.written_eq
  obtain rfl : stored = stored' := Except.ok.inj (hstored.symm.trans hstored')
  unfold IsTimed at htimed htimed'
  split at htimed
  next hfield =>
    rw [if_pos hfield] at htimed'
    obtain ⟨iso, hiso, rfl⟩ := htimed
    obtain ⟨iso', hiso', rfl⟩ := htimed'
    obtain rfl : iso = iso' := Except.ok.inj (hiso.symm.trans hiso')
    exact hp
  next hfield =>
    rw [if_neg hfield] at htimed'
    exact htimed.trans htimed'.symm ▸ hp

/-- A statement of a call leaves records exactly if what the call writes does. -/
theorem ensures_keepsRecords_iff (call : Writing) (hs : call.document.Sorted) :
    Ensures (fun statement => statement.KeepsRecords ↔
      call.LeavesRecords className caller s statement) s (call.run store className caller)
      fun _ _ => True := by
  have hbook : ∀ statement : Statement, statement.IsBookkeeping →
      (statement.KeepsRecords ↔ call.LeavesRecords className caller s statement) := by
    intro statement h
    cases statement with
    | relation | metadata | table | aggregate => exact Iff.rfl
    | rows | insert => exact h.elim
  cases call with
  | create submitted =>
    refine ensures_bind (ensures_create_of hbook ?_) fun _ _ _ _ => ensures_pure trivial
    intro stored object _ hstored hobject fresh columns hfresh hcolumns
    exact (keepsRecords_insert hfresh hcolumns).trans (isRecord_iff hs hstored hobject)
  | update query submitted options =>
    refine ensures_bind (ensures_update_of hbook ?_) fun _ _ _ _ => ensures_pure trivial
    intro prepared written _ hupdates
    constructor
    · intro filter action _ haction
      have honly := updates_iff hupdates (p := fun _ written => ∀ member ∈ written,
        IsLegalMember member)
      exact (keepsRecords_update (hasNestedKeys_of_updates hupdates) haction).trans honly.symm
    · intro _ _ fresh columns hfresh hcolumns
      have honly := updates_iff hupdates (p := fun prepared written =>
        IsRecord (s.schemaOf className).forStorage (described prepared written))
      exact (keepsRecords_insert hfresh hcolumns).trans honly.symm

/-- Every statement of a call that creates or updates objects makes records of the rows that it
inserts and leaves records of those that it changes, exactly if what the call writes there does. -/
theorem sent_keepsRecords_iff (store : Store) (className : String) (caller : Caller)
    (call : Writing) (s : Session) (hs : call.document.Sorted) (statement : Statement)
    (hsent : statement ∈ (call.run store className caller).sent s) :
    statement.KeepsRecords ↔ call.LeavesRecords className caller s statement :=
  (ensures_keepsRecords_iff call hs).of_mem_sent hsent

/-- A session that knows one class, whose objects have a title. -/
def titledPosts : Session where
  rowAnswers := []
  changeAnswers := []
  now := ⟨0, 0⟩
  randomBytes := fun _ => Vector.replicate 10 0
  classes := [("Post", (Schema.ofClass "Post").withField "title" .string)]

/-- A new object with a title alone is inserted as a record. -/
theorem create_keepsRecords : ∃ columns,
    Statement.insert "Post" columns ∈
      ((Writing.create [("title", .str "x")]).run ⟨{}, .given⟩ "Post" .anonymous).sent titledPosts
    ∧ (Statement.insert "Post" columns).KeepsRecords := by
  obtain ⟨columns, hsent⟩ : ∃ columns,
      ((Writing.create [("title", .str "x")]).run ⟨{}, .given⟩ "Post" .anonymous).sent titledPosts
        = [.insert "Post" columns] := ⟨_, rfl⟩
  have hmem : Statement.insert "Post" columns ∈
      ((Writing.create [("title", .str "x")]).run ⟨{}, .given⟩ "Post" .anonymous).sent
        titledPosts :=
    hsent ▸ List.mem_cons_self
  have hcreates : CreatesRecord (titledPosts.schemaOf "Post") [("title", .str "x")] := by
    refine ⟨by decide, nofun, ?_⟩
    intro _ name hname value hget
    rcases List.mem_pair.mp hname with rfl | rfl <;> cases hget
  exact ⟨columns, hmem, (sent_keepsRecords_iff ⟨{}, .given⟩ "Post" .anonymous
    (.create [("title", .str "x")]) titledPosts (Dict.sorted_singleton _) _ hmem).mpr hcreates⟩

/-- An update that creates the object it does not match inserts it without permission columns. -/
theorem upsert_inserts_no_record : ∃ columns,
    Statement.insert "Post" columns ∈
      ((Writing.update [(objectIdField, .str "p")] [("title", .str "x")] { upsert := true }).run
        ⟨{}, .given⟩ "Post" .anonymous).sent titledPosts
    ∧ ¬ (Statement.insert "Post" columns).KeepsRecords := by
  obtain ⟨id, title, time, hsent⟩ : ∃ id title time,
      ((Writing.update [(objectIdField, .str "p")] [("title", .str "x")] { upsert := true }).run
        ⟨{}, .given⟩ "Post" .anonymous).sent titledPosts
        = [.insert "Post" [("objectId", id), ("title", title), ("updatedAt", time)]] :=
    ⟨_, _, _, rfl⟩
  refine ⟨_, hsent ▸ List.mem_cons_self, ?_⟩
  intro hkeeps
  obtain ⟨sql, hmem, _⟩ := hkeeps.1 readColumn (by decide)
  simp [readColumn] at hmem

end Request

end ObjectStore
