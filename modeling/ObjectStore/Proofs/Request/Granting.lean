import ObjectStore.Proofs.Request.Grants
import ObjectStore.Proofs.Request.Records
import ObjectStore.Proofs.Update.Columns

/-!
# Access control lists of new objects and of updates

A new object and an update may both come with an `ACL`, and both store the groups that it grants a
right to in the permission columns. But they go about it in different orders. The `ACL` of a new
object is replaced by its columns first, and what is validated then is what will be stored. An
update takes out its changes to relations first, then validates what is left, and replaces the `ACL`
last.

So an `ACL` that has a dot or a dollar sign in the name of a group, or in a grant, is good for a new
object and not for an update; and one that looks like a change to a relation is taken for one by an
update, which then stores no groups. Apart from that the two store the same (`acl_agrees_iff`).
-/

namespace ObjectStore

open Access Result Update

/-- The right that a permission column is about. -/
def rightOf (column : String) : String := if column = readColumn then "read" else "write"

/-- A statement that writes a row stores the groups that an `ACL` grants rights to. -/
def Statement.StoresGroups (acl : Object) : Statement → Prop
  | .insert _ columns => ∀ name ∈ [readColumn, writeColumn],
    (name, FieldType.textArray (grantees acl (rightOf name))) ∈ columns
  | .rows ⟨_, _, .update assignments⟩ | .rows ⟨_, _, .updateOne assignments⟩ =>
    ∃ all, assignments = assignmentSql all ∧ ∀ name ∈ [readColumn, writeColumn],
      (name, FieldType.textArray (grantees acl (rightOf name))) ∈ all
  | .rows _ | .aggregate .. | .relation _ | .metadata _ | .table _ => True

/-- Bookkeeping writes no row. -/
theorem Statement.IsBookkeeping.storesGroups {statement : Statement} (h : statement.IsBookkeeping)
    (acl : Object) : statement.StoresGroups acl := by
  cases statement with
  | rows | insert => exact h.elim
  | aggregate | relation | metadata | table => trivial

namespace Request

open Work Objects

variable {acl rest object stored written : Object} {schema : Schema} {name className : String}
  {now : Timestamp}

/-- An object or an update with an `ACL`. -/
def withAcl (rest acl : Object) : Object := rest.insert aclField (.obj acl)

/-- The permission columns hold the groups that an `ACL` grants rights to. -/
def HoldsGroups (acl object : Object) : Prop :=
  ∀ name ∈ [readColumn, writeColumn],
    object.get? name = some (.ofStrings (grantedGroups acl (rightOf name)))

/-! ## What is stored -/

theorem get?_withAcl (rest acl : Object) : (withAcl rest acl).get? aclField = some (.obj acl) :=
  Dict.get?_insert_self rest aclField (.obj acl)

/-- Columns that were made of an `ACL` hold its groups. -/
theorem holdsGroups_of_toColumns (hacl : object.get? aclField = some (.obj acl))
    (h : toColumns object = .ok stored) : HoldsGroups acl stored := by
  obtain ⟨other, hother, hread, hwrite⟩ := toColumns_of_acl hacl
  obtain rfl := Except.ok.inj (h.symm.trans hother)
  intro name hname
  rcases List.mem_pair.mp hname with rfl | rfl
  · exact hread
  · exact hwrite

/-- Nothing of an `ACL` is left in the place of its columns but lists of groups. -/
theorem mem_toColumns_withAcl (h : toColumns (withAcl rest acl) = .ok stored)
    {member : String × Json} (hmem : member ∈ stored) :
    member ∈ rest ∨ ∃ groups, member.2 = .ofStrings groups := by
  obtain ⟨hnone, -⟩ | ⟨other, -, rfl⟩ := toColumns_eq_ok h
  · cases hnone.symm.trans (get?_withAcl rest acl)
  · rw [withAcl, Dict.erase_insert] at hmem
    rcases Dict.mem_insert hmem with rfl | hmem
    · exact .inr ⟨_, rfl⟩
    · rcases Dict.mem_insert hmem with rfl | hmem
      · exact .inr ⟨_, rfl⟩
      · exact .inl (Dict.mem_erase.mp hmem).1

/-- A new object is never refused for its `ACL`. -/
theorem storedForm_withAcl (hrest : rest.Sorted)
    (hkeys : ∀ member ∈ rest, hasNestedKeys member.2 = true) (acl : Object) :
    ∃ created, storedForm (withAcl rest acl) = .ok created
      ∧ HoldsGroups acl (RelationUpdate.remaining created) := by
  obtain ⟨columned, hcolumned, -⟩ := toColumns_of_acl (get?_withAcl rest acl)
  have hvalid : validateNestedKeys (withOpenColumns columned) = .ok () := by
    refine validateNestedKeys_eq_ok.mpr ?_
    intro member hmem
    rcases mem_foldl_withDefault hmem with hopen | hmem
    · exact hopen ▸ hasNestedKeys_ofStrings _
    · rcases mem_toColumns_withAcl hcolumned hmem with hmem | ⟨groups, hgroups⟩
      · exact hkeys member hmem
      · exact hgroups ▸ hasNestedKeys_ofStrings groups
  have hsorted : (withOpenColumns columned).Sorted :=
    sorted_foldl_withDefault (sorted_toColumns hcolumned (hrest.insert _ _))
  refine ⟨withOpenColumns columned, ?_, ?_⟩
  · rw [storedForm, hcolumned]
    exact bind_eq_ok.mpr ⟨_, rfl, bind_eq_ok.mpr ⟨(), hvalid, rfl⟩⟩
  · intro name hname
    have hheld := holdsGroups_of_toColumns (get?_withAcl rest acl) hcolumned name hname
    have hkept : (withOpenColumns columned).get? name
        = some (.ofStrings (grantedGroups acl (rightOf name))) := by
      rw [withOpenColumns, get?_foldl_withDefault_of_mem hname, hheld, Option.getD_some]
    exact (RelationUpdate.get?_remaining hsorted).mpr ⟨hkept, rfl⟩

/-- An `ACL` is plain if all its keys may stand below a field, and it is no change to a relation. -/
structure IsPlain (acl : Object) : Prop where
  nested : hasNestedKeys (.obj acl) = true
  noRelation : RelationUpdate.ofJson aclField (.obj acl) = []

/-- An `ACL` that is no change to a relation remains. -/
theorem get?_remaining_withAcl (hrest : rest.Sorted)
    (hacl : RelationUpdate.ofJson aclField (.obj acl) = []) :
    (RelationUpdate.remaining (withAcl rest acl)).get? aclField = some (.obj acl) :=
  (RelationUpdate.get?_remaining (hrest.insert _ _)).mpr ⟨get?_withAcl rest acl, hacl⟩

/-- An `ACL` that is taken for a change to a relation goes with the changes. -/
theorem get?_remaining_withAcl_eq_none (hrest : rest.Sorted)
    (hacl : RelationUpdate.ofJson aclField (.obj acl) ≠ []) :
    (RelationUpdate.remaining (withAcl rest acl)).get? aclField = none := by
  refine Option.eq_none_iff_forall_ne_some.mpr fun value hvalue => hacl ?_
  obtain ⟨hvalue, hnone⟩ := (RelationUpdate.get?_remaining (hrest.insert _ _)).mp hvalue
  obtain rfl := Option.some.inj ((get?_withAcl rest acl).symm.trans hvalue)
  exact hnone

/-- An update is refused for an `ACL` with other keys, unless it is taken for a change to a
relation. -/
theorem storedUpdate_withAcl_iff (hrest : rest.Sorted)
    (hkeys : ∀ member ∈ rest, hasNestedKeys member.2 = true) (acl : Object) :
    (∃ updated, storedUpdate (RelationUpdate.remaining (withAcl rest acl)) = .ok updated)
      ↔ hasNestedKeys (.obj acl) = true ∨ RelationUpdate.ofJson aclField (.obj acl) ≠ [] := by
  have hsorted := RelationUpdate.sorted_remaining (hrest.insert aclField (.obj acl))
  have hcolumns :
      ∃ stored, toColumns (RelationUpdate.remaining (withAcl rest acl)) = .ok stored := by
    by_cases hacl : RelationUpdate.ofJson aclField (.obj acl) = []
    · obtain ⟨stored, hstored, -⟩ := toColumns_of_acl (get?_remaining_withAcl hrest hacl)
      exact ⟨stored, hstored⟩
    · exact ⟨_, by rw [toColumns, get?_remaining_withAcl_eq_none hrest hacl]⟩
  constructor
  · rintro ⟨updated, h⟩
    obtain ⟨_, hvalid, -⟩ := bind_eq_ok.mp h
    by_cases hacl : RelationUpdate.ofJson aclField (.obj acl) = []
    · exact .inl (validateNestedKeys_eq_ok.mp hvalid _
        (hsorted.get?_eq_some_iff.mp (get?_remaining_withAcl hrest hacl)))
    · exact .inr hacl
  · intro h
    obtain ⟨stored, hstored⟩ := hcolumns
    have hvalid : validateNestedKeys (RelationUpdate.remaining (withAcl rest acl)) = .ok () := by
      refine validateNestedKeys_eq_ok.mpr ?_
      intro member hmem
      obtain ⟨hmem, hnone⟩ := List.mem_filter.mp hmem
      rcases Dict.mem_insert hmem with rfl | hmem
      · exact h.resolve_right fun hne => hne (List.isEmpty_iff.mp hnone)
      · exact hkeys member hmem
    exact ⟨stored, bind_eq_ok.mpr ⟨(), hvalid, hstored⟩⟩

/-- An update that takes its `ACL` for what it is stores the groups. -/
theorem holdsGroups_storedUpdate (hrest : rest.Sorted)
    (hacl : RelationUpdate.ofJson aclField (.obj acl) = [])
    (h : storedUpdate (RelationUpdate.remaining (withAcl rest acl)) = .ok stored) :
    HoldsGroups acl stored := by
  obtain ⟨_, -, hcolumns⟩ := bind_eq_ok.mp h
  exact holdsGroups_of_toColumns (get?_remaining_withAcl hrest hacl) hcolumns

/-- An update that takes its `ACL` for a change to a relation stores no groups. -/
theorem get?_storedUpdate_eq_none (hrest : rest.Sorted)
    (hacl : RelationUpdate.ofJson aclField (.obj acl) ≠ [])
    (hname : name ∈ [readColumn, writeColumn])
    (hfree : rest.get? name = none)
    (h : storedUpdate (RelationUpdate.remaining (withAcl rest acl)) = .ok stored) :
    stored.get? name = none := by
  obtain ⟨_, -, hcolumns⟩ := bind_eq_ok.mp h
  have hne : name ≠ aclField := by
    rcases List.mem_pair.mp hname with rfl | rfl <;> decide
  rw [toColumns, get?_remaining_withAcl_eq_none hrest hacl] at hcolumns
  obtain rfl := Except.ok.inj hcolumns
  refine Option.eq_none_iff_forall_ne_some.mpr ?_
  intro value hvalue
  have hvalue := ((RelationUpdate.get?_remaining (hrest.insert _ _)).mp hvalue).1
  rw [Dict.get?_insert_of_ne _ _ hne, hfree] at hvalue
  cases hvalue

/-! ## What is sent -/

/-- Groups to be stored in a permission column are sent as an array of texts. -/
theorem encode_grantedGroups (acl : Object) (right : String) :
    (FieldType.arrayOf .string).encode (.ofStrings (grantedGroups acl right))
      = .ok (some (FieldType.textArray (grantees acl right))) := by
  rw [grantees_eq]
  rfl

/-- The insertion of an object that holds the groups stores them. -/
theorem storesGroups_insert {flat : Object} {columns : List (String × Sql)}
    (hobject : HoldsGroups acl object) (hflat : flatten object = .ok flat)
    (h : insertColumns className schema flat = .ok columns) :
    (Statement.insert className columns).StoresGroups acl := by
  intro name hname
  have hmem : (name, Json.ofStrings (grantedGroups acl (rightOf name))) ∈ flat :=
    (mem_flatten hflat).mpr ⟨_, Dict.mem_of_get? (hobject name hname), rfl⟩
  have htype : schema.forStorage.field? name = some (.arrayOf .string) :=
    field?_forStorage schema (List.mem_pair.mp hname)
  exact (mem_insertColumns h).mpr ⟨_, _, hmem, htype, encode_grantedGroups acl _⟩

/-- An update that holds the groups assigns them. -/
theorem mem_assignments_of_holdsGroups {all : List (String × Sql)}
    (hwritten : HoldsGroups acl written) (h : assignments schema written = .ok all)
    (hname : name ∈ [readColumn, writeColumn]) :
    (name, FieldType.textArray (grantees acl (rightOf name))) ∈ all := by
  obtain ⟨a, hgathers, hall⟩ := gathers_of_assignments h
  have hcut : Text.cut? '.' name = none := by
    rcases List.mem_pair.mp hname with rfl | rfl <;> decide
  have htype : schema.forStorage.field? name = some (.arrayOf .string) :=
    field?_forStorage schema (List.mem_pair.mp hname)
  have hexpression : expression name (.arrayOf .string)
      (.ofStrings (grantedGroups acl (rightOf name)))
      = .ok (FieldType.textArray (grantees acl (rightOf name))) :=
    (expression_literal_iff rfl).mpr (encode_grantedGroups acl _)
  cases hgathers.contributes hall (Dict.mem_of_get? (hwritten name hname)) with
  | whole _ htype' hsql hmem =>
    obtain rfl := Option.some.inj (htype.symm.trans htype')
    obtain rfl := Except.ok.inj (hexpression.symm.trans hsql)
    exact hmem
  | nested hcut' => cases hcut.symm.trans hcut'

/-- An update that holds the groups stores them, of one row or of all. -/
theorem storesGroups_update {filter : Filter} {action : RowAction}
    (hwritten : HoldsGroups acl written)
    (haction : IsUpdate schema written action ∨ IsUpdateOne schema written action) :
    (Statement.rows ⟨className, filter, action⟩).StoresGroups acl := by
  have hall {assignments : Sql} (h : setClause schema written = .ok assignments) :
      ∃ all, assignments = assignmentSql all ∧ ∀ name ∈ [readColumn, writeColumn],
        (name, FieldType.textArray (grantees acl (rightOf name))) ∈ all := by
    obtain ⟨all, hassignments, rfl⟩ := map_eq_ok.mp h
    exact ⟨all, rfl, fun name => mem_assignments_of_holdsGroups hwritten hassignments⟩
  rcases haction with ⟨assignments, h, rfl⟩ | ⟨assignments, h, rfl⟩
  · exact hall h
  · exact hall h

/-- The fields that are supplied by the store are no permission columns. -/
theorem notMem_supplied (hname : name ∈ [readColumn, writeColumn]) :
    name ∉ [objectIdField, createdAtField, updatedAtField] := by
  rcases List.mem_pair.mp hname with rfl | rfl <;> decide

/-- Completing an object leaves the groups. -/
theorem holdsGroups_of_isCompleted (hstored : HoldsGroups acl stored)
    (h : IsCompleted schema now stored object) : HoldsGroups acl object := fun name hname =>
  (h.get?_of_notMem (notMem_supplied hname)).trans (hstored name hname)

/-- What is written is what is stored, at most with the time of the update. -/
theorem eq_of_isTimed (h : IsTimed schema now stored written) :
    written = stored ∨ ∃ date, written = stored.insert updatedAtField date := by
  unfold IsTimed at h
  split at h
  · obtain ⟨iso, -, rfl⟩ := h
    exact .inr ⟨_, rfl⟩
  · exact .inl h

/-- The time of an update leaves the groups. -/
theorem holdsGroups_of_isTimed (hstored : HoldsGroups acl stored)
    (h : IsTimed schema now stored written) : HoldsGroups acl written := by
  intro name hname
  have hne : name ≠ updatedAtField := fun heq => notMem_supplied hname (by simp [heq])
  rcases eq_of_isTimed h with rfl | ⟨date, rfl⟩
  · exact hstored name hname
  · rw [Dict.get?_insert_of_ne _ _ hne]
    exact hstored name hname

/-- What is written is in order if what is stored is. -/
theorem sorted_of_isTimed (hstored : stored.Sorted) (h : IsTimed schema now stored written) :
    written.Sorted := by
  rcases eq_of_isTimed h with rfl | ⟨date, rfl⟩
  · exact hstored
  · exact hstored.insert _ _

/-- What an update says counts, whatever its query names. -/
theorem holdsGroups_described (query : Object) (hsorted : written.Sorted)
    (hwritten : HoldsGroups acl written) : HoldsGroups acl (described query written) :=
  fun name hname => Dict.get?_merge_of_mem hsorted.nodup_keys
    (Dict.mem_of_get? (hwritten name hname))

section Runs

variable {store : Store} {caller : Caller} {s : Session} {query : Object} {options : UpdateOptions}

/-- Creating stores the groups of an `ACL`, whatever else it has. -/
theorem ensures_create_storesGroups (hrest : rest.Sorted)
    (hkeys : ∀ member ∈ rest, hasNestedKeys member.2 = true) :
    Ensures (Statement.StoresGroups acl) s (create store className (withAcl rest acl) caller)
      fun _ _ => True := by
  refine ensures_create_of (fun _ h => h.storesGroups acl) ?_
  intro stored object _ hstored hobject fresh columns hfresh hcolumns
  obtain ⟨created, hcreated, hholds⟩ := storedForm_withAcl hrest hkeys acl
  obtain rfl := Except.ok.inj (hcreated.symm.trans hstored)
  exact storesGroups_insert (holdsGroups_of_isCompleted hholds hobject) hfresh hcolumns

/-- Updating stores the groups of an `ACL` that it takes for one. -/
theorem ensures_update_storesGroups (hrest : rest.Sorted)
    (hacl : RelationUpdate.ofJson aclField (.obj acl) = []) :
    Ensures (Statement.StoresGroups acl) s
      (update store className query (withAcl rest acl) options caller) fun _ _ => True := by
  refine ensures_update_of (fun _ h => h.storesGroups acl) ?_
  rintro prepared written _ ⟨-, stored, hstored, htimed⟩
  have hwritten := holdsGroups_of_isTimed (holdsGroups_storedUpdate hrest hacl hstored) htimed
  refine ⟨fun filter action _ haction => storesGroups_update hwritten haction, ?_⟩
  intro _ _ fresh columns hfresh hcolumns
  -- an upsert inserts what the query and the update describe, and the update counts
  obtain ⟨_, -, hcolumned⟩ := bind_eq_ok.mp hstored
  have hsorted : written.Sorted := sorted_of_isTimed
    (sorted_toColumns hcolumned (RelationUpdate.sorted_remaining (hrest.insert _ _))) htimed
  exact storesGroups_insert (holdsGroups_described prepared hsorted hwritten) hfresh hcolumns

/-- An update that cannot be stored writes nothing and does not succeed. -/
theorem ensures_update_refused {submitted : Object}
    (h : ¬ ∃ updated, storedUpdate (RelationUpdate.remaining submitted) = .ok updated) :
    Ensures Statement.IsBookkeeping s (update store className query submitted options caller)
      fun _ _ => False := by
  refine ensures_bind (ensures_authorize className caller .update s) fun _ _ _ _ => ?_
  refine ensures_bind (ensures_classToUpdate fun _ _ _ hst => hst.isBookkeeping) fun _ _ _ _ => ?_
  refine ensures_bind_ofResult fun _ _ => ?_
  refine ensures_bind_ofResult ?_
  intro stored hstored
  exact absurd ⟨stored, hstored⟩ h

end Runs

/-! ## The same on both -/

/-- A new object and an update are both accepted or both refused, and if they are accepted, they
store the same in the permission columns. -/
def StoredAlike (submitted : Object) : Prop :=
  ((∃ created, storedForm submitted = .ok created)
    ↔ ∃ updated, storedUpdate (RelationUpdate.remaining submitted) = .ok updated)
  ∧ ∀ created updated, storedForm submitted = .ok created →
    storedUpdate (RelationUpdate.remaining submitted) = .ok updated →
    ∀ name ∈ [readColumn, writeColumn],
      (RelationUpdate.remaining created).get? name = updated.get? name

/-- A new object and an update store an `ACL` alike exactly if it is plain. -/
theorem storedAlike_iff (hrest : rest.Sorted)
    (hkeys : ∀ member ∈ rest, hasNestedKeys member.2 = true)
    (hfree : ∀ name ∈ [readColumn, writeColumn], rest.get? name = none) :
    StoredAlike (withAcl rest acl) ↔ IsPlain acl := by
  obtain ⟨created, hcreated, hholds⟩ := storedForm_withAcl hrest hkeys acl
  have hupdate := storedUpdate_withAcl_iff hrest hkeys acl
  constructor
  · rintro ⟨hpass, hsame⟩
    obtain ⟨updated, hupdated⟩ := hpass.mp ⟨created, hcreated⟩
    have hacl : RelationUpdate.ofJson aclField (.obj acl) = [] := by
      by_contra hacl
      have hname : readColumn ∈ [readColumn, writeColumn] := List.mem_cons_self
      have hnone := get?_storedUpdate_eq_none hrest hacl hname (hfree _ hname) hupdated
      rw [← hsame created updated hcreated hupdated _ hname, hholds _ hname] at hnone
      cases hnone
    exact ⟨(hupdate.mp ⟨updated, hupdated⟩).resolve_right fun hne => hne hacl, hacl⟩
  · intro hplain
    refine ⟨iff_of_true ⟨created, hcreated⟩ (hupdate.mpr (.inl hplain.nested)), ?_⟩
    intro other updated hother hupdated name hname
    obtain rfl := Except.ok.inj (hcreated.symm.trans hother)
    rw [hholds name hname, holdsGroups_storedUpdate hrest hplain.noRelation hupdated name hname]

/-- An `ACL` is accepted and stored alike with a new object and with an update if and only if it is
plain. With a new object its groups are always stored; an update stores them if the `ACL` is plain,
and if the `ACL` has other keys, and is no change to a relation, the update is refused and writes
nothing. -/
theorem acl_agrees_iff (rest acl : Object) (hrest : rest.Sorted)
    (hkeys : ∀ member ∈ rest, hasNestedKeys member.2 = true)
    (hfree : ∀ name ∈ [readColumn, writeColumn], rest.get? name = none) :
    (StoredAlike (withAcl rest acl) ↔ IsPlain acl)
    ∧ ∀ store className query options caller s,
      (∀ statement ∈ (create store className (withAcl rest acl) caller).sent s,
        statement.StoresGroups acl)
      ∧ (IsPlain acl →
        ∀ statement ∈ (update store className query (withAcl rest acl) options caller).sent s,
          statement.StoresGroups acl)
      ∧ (hasNestedKeys (.obj acl) = false → RelationUpdate.ofJson aclField (.obj acl) = [] →
        (∀ statement ∈ (update store className query (withAcl rest acl) options caller).sent s,
          statement.IsBookkeeping)
        ∧ ∀ answer, ((update store className query (withAcl rest acl) options caller).run s).1
          ≠ .ok answer) := by
  refine ⟨storedAlike_iff hrest hkeys hfree, ?_⟩
  intro store className query options caller s
  refine ⟨?_, ?_, ?_⟩
  · intro statement hsent
    exact (ensures_create_storesGroups hrest hkeys).of_mem_sent hsent
  · intro hplain statement hsent
    exact (ensures_update_storesGroups hrest hplain.noRelation).of_mem_sent hsent
  · intro hnested hacl
    have hrefused : Ensures Statement.IsBookkeeping s
        (update store className query (withAcl rest acl) options caller) fun _ _ => False := by
      refine ensures_update_refused ?_
      intro haccepted
      rcases (storedUpdate_withAcl_iff hrest hkeys acl).mp haccepted with h | h
      · exact Bool.false_ne_true (hnested.symm.trans h)
      · exact h hacl
    exact ⟨fun statement hsent => hrefused.of_mem_sent hsent, hrefused.result⟩

/-- An `ACL` that lets a user read. -/
def userReads : Object := [("u", .obj [("read", .bool true)])]

/-- An `ACL` that lets a role read, whose name has a dot. -/
def dottedRoleReads : Object := [("role:a.b", .obj [("read", .bool true)])]

/-- A post that a user may read is stored for that user, both when it is created and when it is
updated. -/
theorem title_stored_alike :
    IsPlain userReads ∧ StoredAlike (withAcl [("title", .str "x")] userReads)
    ∧ (∃ columns, Statement.insert "Post" columns ∈
        (create ⟨{}, .given⟩ "Post" (withAcl [("title", .str "x")] userReads) .anonymous).sent
          titledPosts
      ∧ (Statement.insert "Post" columns).StoresGroups userReads)
    ∧ ∃ filter assignments, .rows ⟨"Post", filter, .updateOne assignments⟩ ∈
        (update ⟨{}, .given⟩ "Post" [] (withAcl [("title", .str "x")] userReads) {}
          .anonymous).sent titledPosts
      ∧ (Statement.rows ⟨"Post", filter, .updateOne assignments⟩).StoresGroups userReads := by
  have hkeys : ∀ member ∈ [("title", Json.str "x")], hasNestedKeys member.2 = true := by decide
  have hfree : ∀ name ∈ [readColumn, writeColumn],
      Dict.get? [("title", Json.str "x")] name = none := by
    intro name hname
    rcases List.mem_pair.mp hname with rfl | rfl <;> rfl
  have hplain : IsPlain userReads := ⟨by decide, rfl⟩
  obtain ⟨halike, hsent⟩ :=
    acl_agrees_iff [("title", .str "x")] userReads (Dict.sorted_singleton _) hkeys hfree
  obtain ⟨hcreated, hupdated, -⟩ := hsent ⟨{}, .given⟩ "Post" [] {} .anonymous titledPosts
  obtain ⟨columns, hinsert⟩ : ∃ columns,
      (create ⟨{}, .given⟩ "Post" (withAcl [("title", .str "x")] userReads) .anonymous).sent
        titledPosts = [.insert "Post" columns] := ⟨_, rfl⟩
  obtain ⟨filter, assignments, hupdate⟩ : ∃ filter assignments,
      (update ⟨{}, .given⟩ "Post" [] (withAcl [("title", .str "x")] userReads) {}
        .anonymous).sent titledPosts
        = [.rows ⟨"Post", filter, .updateOne assignments⟩] := ⟨_, _, rfl⟩
  have hcolumns := hinsert ▸ List.mem_cons_self
  have hassignments := hupdate ▸ List.mem_cons_self
  exact ⟨hplain, halike.mpr hplain, ⟨columns, hcolumns, hcreated _ hcolumns⟩, filter, assignments,
    hassignments, hupdated hplain _ hassignments⟩

/-- A post that a role may read is created, but an update does not make it one if the name of the
role has a dot. -/
theorem dotted_role_refused :
    (∃ answer, ((create ⟨{}, .given⟩ "Post" (withAcl [("title", .str "x")] dottedRoleReads)
      .anonymous).run titledPosts).1 = .ok answer)
    ∧ ((update ⟨{}, .given⟩ "Post" [] (withAcl [("title", .str "x")] dottedRoleReads) {}
      .anonymous).run titledPosts).1 = .error .invalidNestedKey
    ∧ ¬ StoredAlike (withAcl [("title", .str "x")] dottedRoleReads) := by
  refine ⟨⟨_, rfl⟩, rfl, ?_⟩
  intro hsame
  obtain ⟨updated, hupdated⟩ := hsame.1.mp ⟨_, rfl⟩
  have hrefused : storedUpdate
      (RelationUpdate.remaining (withAcl [("title", .str "x")] dottedRoleReads))
      = .error .invalidNestedKey := rfl
  cases hupdated.symm.trans hrefused

end Request

end ObjectStore
