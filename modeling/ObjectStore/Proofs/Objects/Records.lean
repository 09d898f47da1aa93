import ObjectStore.Proofs.Access.StoredRow
import ObjectStore.Proofs.Objects.Sending
import ObjectStore.Proofs.Update.Effects

/-!
# What statements leave of records

A record has an id and its two permission columns, none of them `NULL`, and no key in its documents
has a dollar sign or a dot. A statement keeps this up (`Statement.KeepsRecords`) if what it inserts
has it, or if what it assigns takes none of it away.

Whether an insertion does is known from the object that is inserted (`keepsRecords_insert`), with
its operators in place of what they yield, and whether an update does from its members
(`isLegal_setClause`).
-/

namespace ObjectStore

open Result Sql Update

/-- The columns that every record has. -/
def recordColumns : List String := [objectIdField, readColumn, writeColumn]

/-- A statement makes records of the rows that it inserts, and leaves records of those that it
changes. -/
def Statement.KeepsRecords : Statement → Prop
  | .insert _ columns =>
    (∀ name ∈ recordColumns, ∃ sql, (name, sql) ∈ columns ∧ sql.isNull = false)
      ∧ ∀ column ∈ columns, column.2.IsLegal
  | .rows ⟨_, _, .update assignments⟩ | .rows ⟨_, _, .updateOne assignments⟩ => assignments.IsLegal
  | .rows _ | .aggregate .. | .relation _ | .metadata _ | .table _ => True

/-- The type of the column of a field. -/
def Schema.columnType? (s : Schema) (name : String) : Option ColumnType :=
  (s.field? name).bind FieldType.column?

theorem Schema.columnType?_objectId (s : Schema) :
    s.forStorage.columnType? objectIdField = s.columnType? objectIdField := by
  rw [columnType?, columnType?, field?, field?, forStorage, Dict.get?_insert_of_ne _ _ (by decide),
    Dict.get?_insert_of_ne _ _ (by decide), Dict.get?_erase_of_ne (by decide)]

/-- The permission columns are stored as lists of texts. -/
theorem Schema.columnType?_groups (s : Schema) {name : String}
    (h : name ∈ [readColumn, writeColumn]) : s.forStorage.columnType? name = some .textArray := by
  have hfield : s.forStorage.field? name = some (.arrayOf .string) :=
    Access.field?_forStorage s (by simpa [Access.IsPermission] using h)
  rw [columnType?, hfield]
  rfl

namespace Update

variable {value fresh : Json} {object flat : Object} {member : String × Json}

/-! ## Operators of a new object -/

/-- What a value stands for on a fresh object, if it stands for anything. -/
def freshOf (value : Json) : Result (Option Json) :=
  match value.opTag? with
  | some tag => freshValue value tag
  | none => .ok (some value)

theorem flatten_cons (key : String) (value : Json) (rest : Object) :
    flatten ((key, value) :: rest) = (do
      let fresh ← freshOf value
      let others ← flatten rest
      pure ((fresh.toList.map fun value => (key, value)) ++ others)) := by
  rw [flatten, freshOf]
  cases value.opTag? <;> rfl

/-- The members of a fresh object are what the members of the object stand for. -/
theorem mem_flatten (h : flatten object = .ok flat) :
    member ∈ flat ↔ ∃ value, (member.1, value) ∈ object ∧ freshOf value = .ok (some member.2) := by
  induction object generalizing flat with
  | nil =>
    obtain rfl := Except.ok.inj h
    simp
  | cons head rest ih =>
    obtain ⟨key, value⟩ := head
    rw [flatten_cons] at h
    obtain ⟨fresh, hfresh, h⟩ := bind_eq_ok.mp h
    obtain ⟨others, hothers, h⟩ := bind_eq_ok.mp h
    obtain rfl := pure_eq_ok.mp h
    obtain ⟨k, v⟩ := member
    rw [List.mem_append, ih hothers]
    constructor
    · rintro (hmem | ⟨w, hw, hv⟩)
      · obtain ⟨u, hu, heq⟩ := List.mem_map.mp hmem
        obtain ⟨rfl, rfl⟩ := Prod.mk.inj heq
        exact ⟨value, List.mem_cons_self, hfresh.trans (congrArg _ (Option.mem_toList.mp hu))⟩
      · exact ⟨w, List.mem_cons_of_mem _ hw, hv⟩
    · rintro ⟨w, hw, hv⟩
      rcases List.mem_cons.mp hw with heq | hw
      · obtain ⟨rfl, rfl⟩ := Prod.mk.inj heq
        obtain rfl := Except.ok.inj (hfresh.symm.trans hv)
        exact Or.inl (List.mem_singleton.mpr rfl)
      · exact Or.inr ⟨w, hw, hv⟩

/-- Every member of an object stands for something or for nothing. -/
theorem freshOf_of_flatten (h : flatten object = .ok flat) (hmem : member ∈ object) :
    ∃ fresh, freshOf member.2 = .ok fresh := by
  induction object generalizing flat with
  | nil => cases hmem
  | cons head rest ih =>
    obtain ⟨key, value⟩ := head
    rw [flatten_cons] at h
    obtain ⟨fresh, hfresh, h⟩ := bind_eq_ok.mp h
    obtain ⟨others, hothers, _⟩ := bind_eq_ok.mp h
    rcases List.mem_cons.mp hmem with rfl | hmem
    · exact ⟨fresh, hfresh⟩
    · exact ih hothers hmem

/-- A value stands for something other than `NULL` unless it erases its column. -/
theorem erases_eq_false_iff {fresh : Option Json} (h : freshOf value = .ok fresh) :
    erases value = false ↔ ∃ present, fresh = some present ∧ present.isNull = false := by
  unfold freshOf at h
  split at h
  next tag htag =>
    rw [erases_of_opTag? htag]
    unfold freshValue at h
    split at h
    next operator hoperator =>
      obtain ⟨items, _, h⟩ := bind_eq_ok.mp h
      obtain rfl := pure_eq_ok.mp h
      exact iff_of_true (beq_false_of_ne (ne_delete_of_ofTag? hoperator)) ⟨_, rfl, rfl⟩
    · obtain rfl := Except.ok.inj h
      exact iff_of_false (by decide) nofun
    · split at h
      next amount hamount =>
        obtain rfl := Except.ok.inj h
        have hnumber := (Option.filter_eq_some_iff.mp hamount).2
        refine iff_of_true rfl ⟨amount, rfl, ?_⟩
        cases amount with
        | null => cases hnumber
        | bool | int | double | str | arr | obj => rfl
      · cases h
    · cases h
  next htag =>
    obtain rfl := Except.ok.inj h
    have hkeep : (value.opTag? == some "Delete") = false := by rw [htag]; rfl
    simp [erases, hkeep]

/-- What a value stands for has keys that may stand there if the value has. -/
theorem hasNestedKeys_of_freshOf (h : freshOf value = .ok (some fresh))
    (hvalue : hasNestedKeys value = true) : hasNestedKeys fresh = true := by
  unfold freshOf at h
  split at h
  next tag htag =>
    unfold freshValue at h
    split at h
    next operator hoperator =>
      obtain ⟨items, hitems, h⟩ := bind_eq_ok.mp h
      obtain rfl := Option.some.inj (pure_eq_ok.mp h)
      have hkeys := hasNestedKeys_elements hitems hvalue
      cases operator with
      | add | addUnique => exact hkeys
      | remove => rfl
    · cases h
    · split at h
      next amount hamount =>
        obtain rfl := Option.some.inj (Except.ok.inj h)
        have hnumber := (Option.filter_eq_some_iff.mp hamount).2
        cases amount with
        | int | double => rfl
        | null | bool | str | arr | obj => cases hnumber
      · cases h
    · cases h
  next htag =>
    obtain rfl := Option.some.inj (Except.ok.inj h)
    exact hvalue

end Update

/-! ## Insertions -/

/-- An object makes a record: it gives its id and its permission columns something to hold, and what
it stores in columns of documents has keys that may stand there. -/
structure IsRecord (storage : Schema) (object : Object) : Prop where
  supplied : ∀ name ∈ recordColumns, storage.columnType? name ≠ none
    ∧ ∃ value, (name, value) ∈ object ∧ erases value = false
  nested : ∀ name value fresh, (name, value) ∈ object → freshOf value = .ok (some fresh) →
    storage.columnType? name = some .json → hasNestedKeys fresh = true

namespace Objects

variable {className name : String} {schema storage : Schema} {object flat : Object}
  {columns : List (String × Sql)} {member : String × Json} {column : String × Sql}

theorem insertColumn_eq_ok {found : Option (String × Sql)} :
    insertColumn className storage member = .ok found ↔ ∃ type encoded,
      storage.field? member.1 = some type ∧ type.encode member.2 = .ok encoded
        ∧ encoded.map (fun sql => (member.1, sql)) = found := by
  unfold insertColumn
  cases storage.field? member.1 with
  | none => simp
  | some type =>
    dsimp only
    simp only [bind_eq_ok, pure_eq_ok, Option.some.injEq, exists_and_left, exists_eq_left']

/-- The columns of a new object are those of its members, as far as these have one. -/
theorem mem_insertColumns (h : insertColumns className schema flat = .ok columns) :
    column ∈ columns ↔ ∃ value type, (column.1, value) ∈ flat ∧
      schema.forStorage.field? column.1 = some type ∧ type.encode value = .ok (some column.2) := by
  obtain ⟨found, hfound, h⟩ := bind_eq_ok.mp h
  obtain rfl := pure_eq_ok.mp h
  have hall := mapM_eq_ok.mp hfound
  rw [List.mem_filterMap]
  constructor
  · rintro ⟨_, hmem, rfl⟩
    obtain ⟨member, hmember, hcolumn⟩ := exists_left_of_mem hall hmem
    obtain ⟨type, encoded, htype, hencoded, hfound⟩ := insertColumn_eq_ok.mp hcolumn
    obtain ⟨sql, rfl, rfl⟩ := Option.map_eq_some_iff.mp hfound
    exact ⟨member.2, type, hmember, htype, hencoded⟩
  · rintro ⟨value, type, hmember, htype, hencoded⟩
    obtain ⟨answer, hanswer, hcolumn⟩ := exists_right_of_mem hall hmember
    have hexpected : insertColumn className schema.forStorage (column.1, value)
        = .ok (some column) := insertColumn_eq_ok.mpr ⟨type, _, htype, hencoded, rfl⟩
    exact ⟨answer, hanswer, Except.ok.inj (hcolumn.symm.trans hexpected)⟩

/-- Every member of a new object is stored in its column, unless it has none. -/
theorem exists_encode (h : insertColumns className schema flat = .ok columns)
    (hmem : member ∈ flat) :
    ∃ type encoded, schema.forStorage.field? member.1 = some type
      ∧ type.encode member.2 = .ok encoded := by
  obtain ⟨found, hfound, _⟩ := bind_eq_ok.mp h
  obtain ⟨answer, _, hcolumn⟩ := exists_right_of_mem (mapM_eq_ok.mp hfound) hmem
  obtain ⟨type, encoded, htype, hencoded, _⟩ := insertColumn_eq_ok.mp hcolumn
  exact ⟨type, encoded, htype, hencoded⟩

/-- What is not `NULL` is stored if its type has a column. -/
theorem isSome_encode {type : FieldType} {value : Json} {encoded : Option Sql}
    (hvalue : value.isNull = false) (h : type.encode value = .ok encoded) :
    encoded.isSome = type.column?.isSome := by
  rw [FieldType.encode, hvalue] at h
  cases hcolumn : type.column? with
  | none =>
    rw [hcolumn] at h
    obtain rfl := Except.ok.inj h
    rfl
  | some column =>
    rw [hcolumn] at h
    obtain ⟨sql, _, rfl⟩ := map_eq_ok.mp h
    rfl

/-- A column is supplied if the object has something for it and its type has a column. -/
theorem supplied_iff (hflat : flatten object = .ok flat)
    (h : insertColumns className schema flat = .ok columns) :
    (∃ sql, (name, sql) ∈ columns ∧ sql.isNull = false) ↔
      schema.forStorage.columnType? name ≠ none
        ∧ ∃ value, (name, value) ∈ object ∧ erases value = false := by
  constructor
  · rintro ⟨sql, hcolumn, hpresent⟩
    obtain ⟨fresh, type, hmem, htype, hencoded⟩ := (mem_insertColumns h).mp hcolumn
    obtain ⟨value, hvalue, hfresh⟩ := (mem_flatten hflat).mp hmem
    have hnull : fresh.isNull = false := (FieldType.isLegal_encode hencoded).1 ▸ hpresent
    have hsome := isSome_encode hnull hencoded
    refine ⟨?_, value, hvalue, (erases_eq_false_iff hfresh).mpr ⟨fresh, rfl, hnull⟩⟩
    rw [Schema.columnType?, htype, Option.bind_some, ← Option.isSome_iff_ne_none, ← hsome]
    rfl
  · rintro ⟨hcolumn, value, hvalue, hkept⟩
    obtain ⟨found, hfresh⟩ := freshOf_of_flatten hflat hvalue
    obtain ⟨fresh, rfl, hnull⟩ := (erases_eq_false_iff hfresh).mp hkept
    have hmem : (name, fresh) ∈ flat := (mem_flatten hflat).mpr ⟨value, hvalue, hfresh⟩
    obtain ⟨type, encoded, htype, hencoded⟩ := exists_encode h hmem
    rw [Schema.columnType?, htype, Option.bind_some, ← Option.isSome_iff_ne_none,
      ← isSome_encode hnull hencoded] at hcolumn
    obtain ⟨sql, rfl⟩ := Option.isSome_iff_exists.mp hcolumn
    exact ⟨sql, (mem_insertColumns h).mpr ⟨fresh, type, hmem, htype, hencoded⟩,
      (FieldType.isLegal_encode hencoded).1.trans hnull⟩

/-- What is stored is legal if what stands for it in columns of documents has keys that may stand
there. -/
theorem forall_isLegal_iff (hflat : flatten object = .ok flat)
    (h : insertColumns className schema flat = .ok columns) :
    (∀ column ∈ columns, column.2.IsLegal) ↔ ∀ name value fresh, (name, value) ∈ object →
      freshOf value = .ok (some fresh) → schema.forStorage.columnType? name = some .json →
        hasNestedKeys fresh = true := by
  constructor
  · intro hlegal name value fresh hvalue hfresh hcolumn
    have hmem : (name, fresh) ∈ flat := (mem_flatten hflat).mpr ⟨value, hvalue, hfresh⟩
    obtain ⟨type, encoded, htype, hencoded⟩ := exists_encode h hmem
    rw [Schema.columnType?, htype, Option.bind_some] at hcolumn
    cases hnull : fresh.isNull with
    | true => exact hasNestedKeys_of_isNull hnull
    | false =>
      have hsome := isSome_encode hnull hencoded
      rw [hcolumn] at hsome
      obtain ⟨sql, rfl⟩ := Option.isSome_iff_exists.mp hsome
      have hcolumns : (name, sql) ∈ columns :=
        (mem_insertColumns h).mpr ⟨fresh, type, hmem, htype, hencoded⟩
      exact (FieldType.isLegal_encode hencoded).2.mp (hlegal _ hcolumns) hcolumn
  · rintro hnested ⟨name, sql⟩ hcolumn
    obtain ⟨fresh, type, hmem, htype, hencoded⟩ := (mem_insertColumns h).mp hcolumn
    obtain ⟨value, hvalue, hfresh⟩ := (mem_flatten hflat).mp hmem
    refine (FieldType.isLegal_encode hencoded).2.mpr ?_
    intro hjson
    refine hnested name value fresh hvalue hfresh ?_
    rw [Schema.columnType?, htype]
    exact hjson

/-- An insertion makes a record of a row if the object that is inserted does. -/
theorem keepsRecords_insert (hflat : flatten object = .ok flat)
    (h : insertColumns className schema flat = .ok columns) :
    (Statement.insert className columns).KeepsRecords ↔ IsRecord schema.forStorage object := by
  constructor
  · rintro ⟨hsupplied, hlegal⟩
    exact ⟨fun name hname => (supplied_iff hflat h).mp (hsupplied name hname),
      (forall_isLegal_iff hflat h).mp hlegal⟩
  · intro hrecord
    exact ⟨fun name hname => (supplied_iff hflat h).mpr (hrecord.supplied name hname),
      (forall_isLegal_iff hflat h).mpr hrecord.nested⟩

/-! ## Updates -/

/-- An update leaves records of the rows that it changes if its members do. -/
theorem keepsRecords_update {update : Object} {filter : Filter} {action : RowAction}
    (hvalues : ∀ member ∈ update, hasNestedKeys member.2 = true)
    (haction : IsUpdate schema update action ∨ IsUpdateOne schema update action) :
    (Statement.rows ⟨className, filter, action⟩).KeepsRecords
      ↔ ∀ member ∈ update, IsLegalMember member := by
  obtain ⟨assignments, hset, rfl⟩ | ⟨assignments, hset, rfl⟩ := haction
  · exact isLegal_setClause hvalues hset
  · exact isLegal_setClause hvalues hset

end Objects

end ObjectStore
