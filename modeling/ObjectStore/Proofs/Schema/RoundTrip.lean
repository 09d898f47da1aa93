import ObjectStore.Proofs.Json.Canonical
import ObjectStore.Schema.Document

/-!
# Schema documents are read back

A schema document leaves out what is empty or absent, and keeps apart what is absent from what is
there and empty: an operation without an entry is open, one with an empty entry is closed. Reading a
document back gives the schema that was written, part by part: field types at any depth, the entry
of each operation, protected fields and indexes.

Only one part could be read back as something else: the groups of an entry stand beside two members
that have names of their own. A group has neither name if the entry was itself read from a document
(`Grants.IsFlat`), so what was read once is written and read without a change
(`Schema.ofJson?_toJson`).
-/

namespace ObjectStore

namespace Document

variable {α : Type} {fields : Object} {key : String} {read : Json → Option α} {write : α → Json}

/-! ## Parts of a document -/

/-- A part that may be left out is found under its key alone. -/
theorem get?_omitIf (omitted : Bool) (key : String) (value : Json) (name : String) :
    (Dict.ofList (omitIf omitted key value)).get? name
      = if key = name then (if omitted then none else some value) else none := by
  cases omitted <;> simp [omitIf, Dict.ofList, Dict.insert, Dict.get?]

/-- A part that may be absent is found under its key alone. -/
theorem get?_present (key : String) (write : α → Json) (value : Option α) (name : String) :
    (Dict.ofList (present key write value)).get? name
      = if key = name then value.map write else none := by
  cases value <;> simp [present, Dict.ofList, Dict.insert, Dict.get?]

/-- A part that is left out where it says nothing is read back. -/
theorem part?_of_omitted {missing value : α} {omitted : Bool} {written : Json}
    (hget : Dict.get? fields key = if omitted then none else some written)
    (hmissing : omitted = true → missing = value)
    (hread : omitted = false → read written = some value) :
    part? fields key missing read = some value := by
  unfold part?
  rw [hget]
  cases omitted with
  | true => exact congrArg some (hmissing rfl)
  | false => exact hread rfl

/-- A list that is left out where it is empty is read back. -/
theorem part?_of_isEmpty {items : List α} {written : Json} {read : Json → Option (List α)}
    (hget : Dict.get? fields key = if items.isEmpty then none else some written)
    (hread : read written = some items) : part? fields key [] read = some items :=
  part?_of_omitted hget (fun hempty => (List.isEmpty_iff.mp hempty).symm) fun _ => hread

/-- A part that is left out if it is absent is read back; what is there is not written as null. -/
theorem optional?_eq {value : Option α} (hget : Dict.get? fields key = value.map write)
    (hnull : ∀ a, write a ≠ .null) (hread : ∀ a, value = some a → read (write a) = some a) :
    optional? fields key read = some value := by
  unfold optional?
  rw [hget]
  cases value with
  | none => rfl
  | some a =>
    have hsome : read (write a) = some a := hread a rfl
    cases hwrite : write a with
    | null => exact absurd hwrite (hnull a)
    | _ => simp [Option.map, hwrite ▸ hsome, hwrite]

/-- What is read of an optional part is read of something that is stored. -/
theorem exists_of_optional? {value : α} (h : optional? fields key read = some (some value)) :
    ∃ stored, Dict.get? fields key = some stored ∧ read stored = some value := by
  unfold optional? at h
  split at h
  next => exact nomatch h
  next => exact nomatch h
  next stored _ hget =>
    obtain ⟨a, hread, ha⟩ := Option.map_eq_some_iff.mp h
    exact ⟨stored, hget, hread.trans ha⟩

/-- The parts of a canonical document are canonical, also of one that lists them in order. -/
theorem canonical_of_parts? {names : List String} {value : Json} (hvalue : value.Canonical)
    (h : parts? names value = some fields) : fields.Canonical := by
  cases value with
  | obj own =>
    obtain rfl := Option.some.inj h
    exact Object.canonical_iff.mpr hvalue
  | arr items =>
    simp only [parts?, Option.ite_none_right_eq_some, Option.some.injEq] at h
    obtain ⟨-, rfl⟩ := h
    exact Object.canonical_nil.merge fun entry hentry =>
      Json.canonical_arr.mp hvalue _ (List.of_mem_zip hentry).2
  | _ => exact nomatch h

/-- Items are read back from a list if each of them is. -/
theorem mapM_map_eq_some {β : Type} {f : β → Option α} {g : α → β} {items : List α}
    (h : ∀ item ∈ items, f (g item) = some item) : (items.map g).mapM f = some items := by
  induction items with
  | nil => rfl
  | cons item rest ih =>
    have ⟨hitem, hrest⟩ := List.forall_mem_cons.mp h
    simp [hitem, ih hrest]

/-- A list of texts is read back. -/
theorem strings?_ofStrings (texts : List String) : strings? (.ofStrings texts) = some texts :=
  mapM_map_eq_some fun _ _ => rfl

/-- A dictionary is read back if its values are. -/
theorem dict?_ofDict {d : Dict α} (h : ∀ entry ∈ d, read (write entry.2) = some entry.2) :
    dict? read (ofDict write d) = some d := by
  change (d.map fun entry => (entry.1, write entry.2)).mapM _ = some d
  exact mapM_map_eq_some fun entry hentry => by simp [h entry hentry]

/-- A dictionary has the keys of the document that it is read from. -/
theorem keys_of_dict? {d : Dict α} (h : dict? read (.obj fields) = some d) :
    d.keys = fields.keys := by
  change fields.mapM _ = some d at h
  induction fields generalizing d with
  | nil =>
    obtain rfl := Option.some.inj h
    rfl
  | cons field rest ih =>
    simp only [List.mapM_cons, Option.bind_eq_bind, Option.bind_eq_some_iff, Option.map_eq_some_iff,
      Option.pure_def, Option.some.injEq] at h
    obtain ⟨_, ⟨value, _, rfl⟩, others, hothers, rfl⟩ := h
    exact congrArg (List.cons field.1) (ih hothers)

end Document

open Document

/-! ## Field types -/

namespace FieldType

/-- The document of an array type, its members in key order. -/
theorem toJson_arrayOf (contents : FieldType) : toJson (.arrayOf contents)
    = .obj [("contents", contents.toJson), ("type", .str "Array")] := by
  have hlt : "contents" < "type" := by decide
  simp [toJson, Json.ofEntries, Dict.ofList, Dict.insert, hlt]

/-- The document of a pointer type, its members in key order. -/
theorem toJson_pointer (target : String) : toJson (.pointer target)
    = .obj [("targetClass", .str target), ("type", .str "Pointer")] := by
  have hlt : "targetClass" < "type" := by decide
  simp [toJson, Json.ofEntries, Dict.ofList, Dict.insert, hlt]

/-- The document of a relation type, its members in key order. -/
theorem toJson_relation (target : String) : toJson (.relation target)
    = .obj [("targetClass", .str target), ("type", .str "Relation")] := by
  have hlt : "targetClass" < "type" := by decide
  simp [toJson, Json.ofEntries, Dict.ofList, Dict.insert, hlt]

/-- No type is written as null, so the type of the items of an array is never taken for an absent
one. -/
theorem toJson_ne_null (type : FieldType) : type.toJson.isNull = false := by
  cases type <;> rfl

/-- A type is read back, inside an array and outside of one. -/
theorem ofJson?_toJson (type : FieldType) (inArray : Bool) :
    ofJson? inArray type.toJson = some type := by
  induction type generalizing inArray with
  -- the items of an array are read as inside an array
  | arrayOf contents ih =>
    rw [toJson_arrayOf]
    simp [ofJson?, contents?, Dict.get?, typeName?, toJson_ne_null, ih]
  | pointer target =>
    rw [toJson_pointer]
    simp [ofJson?, requiredText?, Dict.get?, typeName?, Json.str?]
  | relation target =>
    rw [toJson_relation]
    simp [ofJson?, requiredText?, Dict.get?, typeName?, Json.str?]
  | _ => rfl

end FieldType

/-! ## Entries of operations -/

namespace Grants

/-- The groups of an entry are in order, and none has the name of another part of the entry, so that
they may stand beside these parts. -/
structure IsFlat (g : Grants) : Prop where
  sorted : g.groups.Sorted
  requires : g.groups.contains "requiresAuthentication" = false
  pointers : g.groups.contains "pointerFields" = false

/-- What is read of a document is flat. -/
theorem isFlat_of_ofJson? {value : Json} {g : Grants} (hvalue : value.Canonical)
    (h : ofJson? value = some g) : g.IsFlat := by
  simp only [ofJson?, Option.bind_eq_bind, Option.bind_eq_some_iff, Option.pure_def,
    Option.some.injEq] at h
  obtain ⟨fields, hfields, requires, -, pointers, -, groups, hgroups, rfl⟩ := h
  have hkeys := keys_of_dict? hgroups
  obtain rfl : value = .obj fields := by
    cases value with
    | obj own => exact congrArg Json.obj (Option.some.inj hfields)
    | _ => cases hfields
  have hsorted := ((Object.canonical_iff.mpr hvalue).sorted.erase "requiresAuthentication").erase
    "pointerFields"
  have hcontains : ∀ name, (Dict.erase (Dict.erase fields "requiresAuthentication")
      "pointerFields").get? name = .none → Dict.contains groups name = false := by
    intro name hget
    rw [← Bool.not_eq_true, Dict.contains_iff_mem_keys, hkeys, ← Dict.contains_iff_mem_keys,
      Dict.contains, hget]
    exact Bool.false_ne_true
  refine ⟨?_, hcontains _ ?_, hcontains _ (Dict.get?_erase_self _ _)⟩
  · change groups.keys.Pairwise _
    rw [hkeys]
    exact hsorted
  · rw [Dict.get?_erase_of_ne (by decide)]
    exact Dict.get?_erase_self _ _

theorem IsFlat.get?_requires {g : Grants} (hg : g.IsFlat) :
    g.groups.get? "requiresAuthentication" = .none :=
  Option.isNone_iff_eq_none.mp (by simpa [Dict.contains] using hg.requires)

theorem IsFlat.get?_pointers {g : Grants} (hg : g.IsFlat) : g.groups.get? "pointerFields" = .none :=
  Option.isNone_iff_eq_none.mp (by simpa [Dict.contains] using hg.pointers)

/-- A flat entry is read back. -/
theorem ofJson?_toJson {g : Grants} (hg : g.IsFlat) : ofJson? g.toJson = some g := by
  let fields : Object := Dict.ofList
    (omitIf (!g.requiresAuthentication) "requiresAuthentication" (.bool true)
      ++ omitIf g.pointerFields.isEmpty "pointerFields" (.ofStrings g.pointerFields)
      ++ g.groups.mapValues .bool)
  have hget : ∀ name, fields.get? name = ((g.groups.get? name).map Json.bool).or
      ((if "pointerFields" = name then
          (if g.pointerFields.isEmpty then .none else some (.ofStrings g.pointerFields))
        else .none).or
        (if "requiresAuthentication" = name then
          (if !g.requiresAuthentication then .none else some (.bool true)) else .none)) := by
    intro name
    rw [Dict.get?_ofList_append, Dict.get?_ofList_append, get?_omitIf, get?_omitIf,
      (hg.sorted.mapValues Json.bool).ofList, Dict.get?_mapValues]
  have hrequires : part? fields "requiresAuthentication" false Json.bool?
      = some g.requiresAuthentication := by
    have hstored : fields.get? "requiresAuthentication"
        = if !g.requiresAuthentication then .none else some (.bool true) := by
      rw [hget, hg.get?_requires]
      simp
    refine part?_of_omitted hstored ?_ ?_
    · cases g.requiresAuthentication <;> simp
    · cases g.requiresAuthentication <;> simp [Json.bool?]
  have hpointers : part? fields "pointerFields" [] strings? = some g.pointerFields := by
    refine part?_of_isEmpty ?_ (strings?_ofStrings _)
    rw [hget, hg.get?_pointers]
    simp
  -- without the two parts, the members are the groups
  have hothers : Dict.erase (Dict.erase fields "requiresAuthentication") "pointerFields"
      = g.groups.mapValues .bool := by
    refine Dict.Sorted.ext (((Dict.sorted_ofList _).erase _).erase _) (hg.sorted.mapValues _) ?_
    intro name
    rw [Dict.get?_mapValues]
    by_cases hp : name = "pointerFields"
    · subst hp
      rw [Dict.get?_erase_self, hg.get?_pointers, Option.map_none]
    by_cases hr : name = "requiresAuthentication"
    · subst hr
      rw [Dict.get?_erase_of_ne hp, Dict.get?_erase_self, hg.get?_requires, Option.map_none]
    rw [Dict.get?_erase_of_ne hp, Dict.get?_erase_of_ne hr, hget]
    simp [Ne.symm hp, Ne.symm hr]
  have hgroups : dict? Json.bool? (.obj (g.groups.mapValues .bool)) = some g.groups :=
    dict?_ofDict fun _ _ => rfl
  have hfields : g.toJson.obj? = some fields := rfl
  simp [ofJson?, hfields, hrequires, hpointers, hothers, hgroups]

theorem toJson_ne_null (g : Grants) : g.toJson ≠ .null := nofun

end Grants

/-! ## Permission tables -/

namespace Permissions

/-- All entries of a permission table are flat. -/
def IsFlat (p : Permissions) : Prop := ∀ op g, p.grants? op = some g → g.IsFlat

/-- What is read of a document is flat. -/
theorem isFlat_of_ofJson? {value : Json} {p : Permissions} (hvalue : value.Canonical)
    (h : ofJson? value = some p) : p.IsFlat := by
  simp only [ofJson?, Option.bind_eq_bind, Option.bind_eq_some_iff, Option.pure_def,
    Option.some.injEq] at h
  obtain ⟨fields, hfields, find, hfind, get, hget, count, hcount, create, hcreate, update, hupdate,
    delete, hdelete, addField, haddField, -, -, -, -, -, -, rfl⟩ := h
  have hflat : ∀ key g, optional? fields key Grants.ofJson? = some (some g) → g.IsFlat := by
    intro key g hg
    obtain ⟨stored, hstored, hread⟩ := exists_of_optional? hg
    exact Grants.isFlat_of_ofJson? ((canonical_of_parts? hvalue hfields).get? hstored) hread
  rintro (_ | _ | _ | _ | _ | _ | _) g ⟨⟩
  · exact hflat _ g hget
  · exact hflat _ g hfind
  · exact hflat _ g hcount
  · exact hflat _ g hcreate
  · exact hflat _ g hupdate
  · exact hflat _ g hdelete
  · exact hflat _ g haddField

/-- The entries of a permission table, as its document has them. -/
def entries (p : Permissions) : List (String × Json) :=
  Operation.all.flatMap fun op => present op.name Grants.toJson (p.grants? op)

/-- The document of a table has the entry of every operation under the name of the operation. -/
theorem get?_entries (p : Permissions) (op : Operation) :
    (Dict.ofList p.entries).get? op.name = (p.grants? op).map Grants.toJson := by
  cases op <;> simp [entries, Operation.all, Dict.get?_ofList_append, get?_present, Operation.name]

/-- The entries of operations are under no other name. -/
theorem get?_entries_of_ne (p : Permissions) {name : String}
    (h : ∀ op : Operation, op.name ≠ name) :
    (Dict.ofList p.entries).get? name = .none := by
  simp [entries, Operation.all, Dict.get?_ofList_append, get?_present, h]

/-- A table with flat entries is read back, and absent entries stay absent. -/
theorem ofJson?_toJson {p : Permissions} (hp : p.IsFlat) : ofJson? p.toJson = some p := by
  let fields : Object := Dict.ofList
    (p.entries ++ omitIf p.protectedFields.isEmpty "protectedFields"
        (ofDict .ofStrings p.protectedFields)
      ++ omitIf p.readUserFields.isEmpty "readUserFields" (.ofStrings p.readUserFields)
      ++ omitIf p.writeUserFields.isEmpty "writeUserFields" (.ofStrings p.writeUserFields))
  have hget : ∀ name, fields.get? name =
      (if "writeUserFields" = name then
        (if p.writeUserFields.isEmpty then .none else some (.ofStrings p.writeUserFields))
      else .none).or
      ((if "readUserFields" = name then
        (if p.readUserFields.isEmpty then .none else some (.ofStrings p.readUserFields))
      else .none).or
      ((if "protectedFields" = name then (if p.protectedFields.isEmpty then .none
          else some (ofDict .ofStrings p.protectedFields)) else .none).or
        ((Dict.ofList p.entries).get? name))) := by
    intro name
    rw [Dict.get?_ofList_append, Dict.get?_ofList_append, Dict.get?_ofList_append, get?_omitIf,
      get?_omitIf, get?_omitIf]
  have hop : ∀ op, optional? fields op.name Grants.ofJson? = some (p.grants? op) := by
    intro op
    refine optional?_eq ?_ Grants.toJson_ne_null fun g hg => Grants.ofJson?_toJson (hp op g hg)
    rw [hget, get?_entries]
    cases op <;> simp [Operation.name]
  have hprotected :
      part? fields "protectedFields" [] (dict? strings?) = some p.protectedFields := by
    refine part?_of_isEmpty ?_ (dict?_ofDict fun _ _ => strings?_ofStrings _)
    rw [hget, get?_entries_of_ne p fun op => by cases op <;> decide]
    simp
  have hreadFields : part? fields "readUserFields" [] strings? = some p.readUserFields := by
    refine part?_of_isEmpty ?_ (strings?_ofStrings _)
    rw [hget, get?_entries_of_ne p fun op => by cases op <;> decide]
    simp
  have hwriteFields : part? fields "writeUserFields" [] strings? = some p.writeUserFields := by
    refine part?_of_isEmpty ?_ (strings?_ofStrings _)
    rw [hget, get?_entries_of_ne p fun op => by cases op <;> decide]
    simp
  have hfields : parts? partNames p.toJson = some fields := rfl
  -- the table is put together from its parts in their order of declaration
  have hfind := hop .find
  have hget := hop .get
  have hcount := hop .count
  have hcreate := hop .create
  have hupdate := hop .update
  have hdelete := hop .delete
  have haddField := hop .addField
  simp only [Operation.name, grants?] at hfind hget hcount hcreate hupdate hdelete haddField
  simp [ofJson?, hfields, hfind, hget, hcount, hcreate, hupdate, hdelete, haddField, hprotected,
    hreadFields, hwriteFields]

theorem toJson_ne_null (p : Permissions) : p.toJson ≠ .null := nofun

end Permissions

/-! ## Schemas -/

namespace Schema

/-- The permission table of a schema, if there is one, is flat. -/
def IsFlat (s : Schema) : Prop := ∀ p, s.permissions = some p → p.IsFlat

/-- What is read of a document is flat. -/
theorem isFlat_of_ofJson? {value : Json} {s : Schema} (hvalue : value.Canonical)
    (h : ofJson? value = some s) : s.IsFlat := by
  simp only [ofJson?, Option.bind_eq_bind, Option.bind_eq_some_iff, Option.pure_def,
    Option.some.injEq] at h
  obtain ⟨parts, hparts, className, -, fields, -, permissions, hpermissions, indexes, -, rfl⟩ := h
  rintro p rfl
  obtain ⟨stored, hstored, hread⟩ := exists_of_optional? hpermissions
  exact Permissions.isFlat_of_ofJson? ((canonical_of_parts? hvalue hparts).get? hstored) hread

/-- A schema whose permission table is flat is read back from its document. -/
theorem ofJson?_toJson {s : Schema} (hs : s.IsFlat) : ofJson? s.toJson = some s := by
  -- the two parts that are never left out are parts that may be, and are not
  let parts : Object := Dict.ofList
    (omitIf false "className" (.str s.className)
      ++ omitIf false "fields" (ofDict FieldType.toJson s.fields)
      ++ present "classLevelPermissions" Permissions.toJson s.permissions
      ++ omitIf s.indexes.isEmpty "indexes" (indexesToJson s.indexes))
  have hget : ∀ name, parts.get? name =
      (if "indexes" = name then
        (if s.indexes.isEmpty then none else some (indexesToJson s.indexes)) else none).or
      ((if "classLevelPermissions" = name then s.permissions.map Permissions.toJson else none).or
      ((if "fields" = name then
        (if false then none else some (ofDict FieldType.toJson s.fields)) else none).or
        (if "className" = name then
          (if false then none else some (.str s.className)) else none))) := by
    intro name
    rw [Dict.get?_ofList_append, Dict.get?_ofList_append, Dict.get?_ofList_append, get?_omitIf,
      get?_omitIf, get?_omitIf, get?_present]
  have hclassName : (parts.get? "className").bind Json.str? = some s.className := by
    rw [hget]
    simp [Json.str?]
  have hfields : part? parts "fields" [] (dict? (FieldType.ofJson? false)) = some s.fields := by
    have hstored : parts.get? "fields"
        = if false then none else some (ofDict FieldType.toJson s.fields) := by
      rw [hget]
      simp
    exact part?_of_omitted hstored nofun fun _ =>
      dict?_ofDict fun entry _ => FieldType.ofJson?_toJson entry.2 false
  have hpermissions : optional? parts "classLevelPermissions" Permissions.ofJson?
      = some s.permissions := by
    refine optional?_eq ?_ Permissions.toJson_ne_null
      fun p hp => Permissions.ofJson?_toJson (hs p hp)
    rw [hget]
    simp
  have hindexes : part? parts "indexes" [] indexes? = some s.indexes := by
    have hread : indexes? (indexesToJson s.indexes) = some s.indexes := by
      have hobj : ∀ entry ∈ s.indexes, (Json.obj entry.2).obj? = some entry.2 := fun _ _ => rfl
      exact dict?_ofDict hobj
    refine part?_of_isEmpty ?_ hread
    rw [hget]
    simp
  have hparts : parts? partNames s.toJson = some parts := rfl
  simp [ofJson?, hparts, hclassName, hfields, hpermissions, hindexes]

end Schema

end ObjectStore
