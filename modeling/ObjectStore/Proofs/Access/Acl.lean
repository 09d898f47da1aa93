import ObjectStore.Access.Acl
import ObjectStore.Proofs.Dict
import ObjectStore.Proofs.Sql.ArrayLiteral
import ObjectStore.Value.Encode

/-!
# The two forms of an access control list

An `ACL` maps groups to what they may do. A row holds it as two lists of groups, each sent as the
literal of an array, and what is read back from a row is made into an `ACL` again. On the way an
entry loses all but its true grants, and a group without any loses its entry; `effective` is what
is left then.

Both ways are described by what they do to one group: `grants` asks an `ACL` for one right of one
group, `mem_grantedGroups` says which groups a list names, and `get?_grantAll` what a list of groups
adds to an `ACL`. From these, the lists that an `ACL` is stored as make what is effective of it
(`ofGroups_grantedGroups`), and an `ACL` that two lists make is stored as lists of the same groups
(`mem_grantedGroups_ofGroups`).
-/

namespace ObjectStore.Access

variable {acl object record : Object} {right group : String} {groups readers writers : List String}

/-! ## Single grants -/

/-- Whether what an `ACL` has for a group grants a right: only the flag `true` does. -/
def isGranted (grant : Json) (right : String) : Bool :=
  (grant.get? right).bind Json.bool? == some true

/-- Whether an `ACL` grants a right to a group. -/
def grants (acl : Object) (group right : String) : Bool :=
  (acl.get? group).any (isGranted · right)

/-- The groups that an `ACL` grants a right to. -/
def grantedGroups (acl : Object) (right : String) : List String :=
  (acl.filter fun entry => isGranted entry.2 right).map Prod.fst

/-- The groups that are stored are those that an `ACL` grants the right to. -/
theorem grantees_eq (acl : Object) (right : String) :
    grantees acl right = (grantedGroups acl right).map .str := by
  rw [grantedGroups, List.map_map]
  rfl

/-- Of an `ACL` in order, the groups that are granted a right are those that it names. -/
theorem mem_grantedGroups (hs : acl.Sorted) :
    group ∈ grantedGroups acl right ↔ grants acl group right = true := by
  simp only [grantedGroups, grants, List.mem_map, List.mem_filter, Option.any_eq_true]
  constructor
  · rintro ⟨⟨_, grant⟩, ⟨hmem, hgranted⟩, rfl⟩
    exact ⟨grant, hs.get?_eq_some_iff.mpr hmem, hgranted⟩
  · rintro ⟨grant, hget, hgranted⟩
    exact ⟨(group, grant), ⟨Dict.mem_of_get? hget, hgranted⟩, rfl⟩

/-! ## Lists of groups in a row -/

/-- The groups that a row holds in a permission column once an object is stored: those of the
literal that is sent for them, as the engine reads it. -/
def storedGroups? (object : Object) (column : String) : Option (List String) :=
  match (object.get? column).map (FieldType.arrayOf .string).encode with
  | some (.ok (some [.bind (.text (some literal)), .text "::text[]"])) => Sql.readArray literal
  | _ => none

/-- A list of groups is stored as it is, whatever characters the groups are made of. -/
theorem storedGroups?_ofStrings {column : String}
    (h : object.get? column = some (.ofStrings groups)) :
    storedGroups? object column = some groups := by
  have hencode : (FieldType.arrayOf .string).encode (.ofStrings groups)
      = .ok (some [.bind (.text (some (Sql.arrayLiteral groups))), .text "::text[]"]) := by
    change Except.ok (some (FieldType.textArray (groups.map .str))) = _
    rw [FieldType.textArray, Json.map_textForm_str]
    rfl
  rw [storedGroups?, h, Option.map_some, hencode]
  exact Sql.readArray_arrayLiteral groups

/-- An object with an `ACL` has the groups that this grants each right to in its columns. -/
theorem toColumns_of_acl (h : object.get? aclField = some (.obj acl)) :
    ∃ stored, toColumns object = .ok stored
      ∧ stored.get? readColumn = some (.ofStrings (grantedGroups acl "read"))
      ∧ stored.get? writeColumn = some (.ofStrings (grantedGroups acl "write")) := by
  refine ⟨_, by rw [toColumns, h], ?_, ?_⟩
  · rw [Dict.get?_insert_of_ne _ _ (by decide), Dict.get?_insert_self, grantees_eq]
    rfl
  · rw [Dict.get?_insert_self, grantees_eq]
    rfl

/-! ## Lists of groups as grants -/

/-- What an `ACL` has for a group so far. -/
def rightsOf (acl : Object) (group : String) : Object :=
  ((acl.get? group).bind Json.obj?).getD []

/-- An `ACL` that grants a right to some more groups. -/
def grantAll (acl : Object) (right : String) (groups : List String) : Object :=
  groups.foldl (grant · right ·) acl

/-- A column with a list of groups grants the right to these. -/
theorem grantColumn_ofStrings (acl : Object) (right : String) (groups : List String) :
    grantColumn acl right (some (.ofStrings groups)) = grantAll acl right groups := by
  have htexts : (groups.map Json.str).filterMap Json.str? = groups := by
    rw [List.filterMap_map]
    exact List.filterMap_some
  change (List.filterMap Json.str? (groups.map Json.str)).foldl _ _ = _
  rw [htexts]
  rfl

/-- What a list of groups adds to an `ACL`: the right, for the groups that it names. -/
theorem get?_grantAll (acl : Object) (right : String) (groups : List String) (group : String) :
    (grantAll acl right groups).get? group
      = if group ∈ groups then some (.obj ((rightsOf acl group).insert right (.bool true)))
        else acl.get? group := by
  unfold grantAll
  induction groups generalizing acl with
  | nil => rfl
  | cons first rest ih =>
    rw [List.foldl_cons, ih]
    by_cases hfirst : group = first
    · -- the right is granted already, and granting it once more changes nothing
      subst hfirst
      have hget : (grant acl right group).get? group
          = some (.obj ((rightsOf acl group).insert right (.bool true))) :=
        Dict.get?_insert_self ..
      have htwice : (rightsOf (grant acl right group) group).insert right (.bool true)
          = (rightsOf acl group).insert right (.bool true) := by
        rw [rightsOf, hget]
        exact Dict.insert_insert ..
      simp [htwice, hget]
    · have hother : (grant acl right first).get? group = acl.get? group :=
        Dict.get?_insert_of_ne _ _ hfirst
      simp [rightsOf, hother, hfirst]

/-- Granting keeps an `ACL` in order. -/
theorem sorted_grantAll (hs : acl.Sorted) : (grantAll acl right groups).Sorted := by
  unfold grantAll
  induction groups generalizing acl with
  | nil => exact hs
  | cons first rest ih => exact ih (hs.insert _ _)

/-- The `ACL` that two lists of groups make. -/
def ofGroups (readers writers : List String) : Object :=
  grantAll (grantAll [] "read" readers) "write" writers

/-- An `ACL` made of lists is in order. -/
theorem sorted_ofGroups : (ofGroups readers writers).Sorted :=
  sorted_grantAll (sorted_grantAll Dict.sorted_nil)

/-- The rights that two lists grant a group, each with the flag `true`. -/
def rights (reads writes : Bool) : Object :=
  (if reads then [("read", .bool true)] else []) ++ if writes then [("write", .bool true)] else []

/-- An `ACL` that is made of two lists has an entry for a group that one of them names, and in it
the rights that the group is named for. -/
theorem get?_ofGroups (readers writers : List String) (group : String) :
    (ofGroups readers writers).get? group
      = if group ∈ readers ∨ group ∈ writers then
          some (.obj (rights (decide (group ∈ readers)) (decide (group ∈ writers))))
        else none := by
  have hread : (grantAll [] "read" readers).get? group
      = if group ∈ readers then some (.obj [("read", .bool true)]) else none :=
    get?_grantAll [] "read" readers group
  rw [ofGroups, get?_grantAll, rightsOf, hread]
  by_cases hr : group ∈ readers <;> by_cases hw : group ∈ writers <;> simp [hr, hw, rights] <;> rfl

/-- An `ACL` made of lists grants each right to the groups of its list. -/
theorem grants_ofGroups :
    grants (ofGroups readers writers) group "read" = decide (group ∈ readers)
      ∧ grants (ofGroups readers writers) group "write" = decide (group ∈ writers) := by
  rw [grants, grants, get?_ofGroups]
  by_cases hr : group ∈ readers <;> by_cases hw : group ∈ writers <;> simp [hr, hw, rights] <;>
    decide

/-- Lists that are made of an `ACL` made of lists name the same groups. -/
theorem mem_grantedGroups_ofGroups :
    (group ∈ grantedGroups (ofGroups readers writers) "read" ↔ group ∈ readers)
      ∧ (group ∈ grantedGroups (ofGroups readers writers) "write" ↔ group ∈ writers) := by
  rw [mem_grantedGroups sorted_ofGroups, mem_grantedGroups sorted_ofGroups, grants_ofGroups.1,
    grants_ofGroups.2, decide_eq_true_iff, decide_eq_true_iff]
  exact ⟨Iff.rfl, Iff.rfl⟩

/-- A record with two lists of groups is shown with the `ACL` that they make, and without them. -/
theorem toWire_of_groups (hread : record.get? readColumn = some (.ofStrings readers))
    (hwrite : record.get? writeColumn = some (.ofStrings writers)) :
    toWire record = ((record.erase readColumn).erase writeColumn).insert aclField
      (.obj (ofGroups readers writers)) := by
  rw [toWire, hread, hwrite, grantColumn_ofStrings, grantColumn_ofStrings]
  rfl

/-! ## What is left of an `ACL` -/

/-- The entries of an `ACL` that grant anything, with what they grant and nothing else. -/
def effective (acl : Object) : Object :=
  (acl.filter fun entry => isGranted entry.2 "read" || isGranted entry.2 "write").map fun entry =>
    (entry.1, .obj (rights (isGranted entry.2 "read") (isGranted entry.2 "write")))

/-- What is effective of an `ACL` in order is in order. -/
theorem sorted_effective (hs : acl.Sorted) : (effective acl).Sorted := by
  have hkeys : (effective acl).map Prod.fst = (acl.filter fun entry =>
      isGranted entry.2 "read" || isGranted entry.2 "write").map Prod.fst := by
    rw [effective, List.map_map]
    rfl
  rw [Dict.Sorted, hkeys]
  exact List.Pairwise.sublist (List.filter_sublist.map _) hs

/-- What is effective has an entry for a group that has any right, with its rights. -/
theorem get?_effective (hs : acl.Sorted) (group : String) :
    (effective acl).get? group
      = if grants acl group "read" || grants acl group "write" then
          some (.obj (rights (grants acl group "read") (grants acl group "write")))
        else none := by
  refine Option.ext ?_
  intro value
  rw [(sorted_effective hs).get?_eq_some_iff]
  simp only [effective, List.mem_map, List.mem_filter, Prod.mk.injEq]
  constructor
  · rintro ⟨⟨_, grant⟩, ⟨hmem, hany⟩, rfl, rfl⟩
    have hget := hs.get?_eq_some_iff.mpr hmem
    simp [grants, hget, hany]
  · intro h
    cases hget : acl.get? group with
    | none => simp [grants, hget] at h
    | some grant =>
      simp only [grants, hget, Option.any_some] at h
      split at h
      next hany => exact ⟨(group, grant), ⟨Dict.mem_of_get? hget, hany⟩, rfl, Option.some.inj h⟩
      next => cases h

/-- The lists of an `ACL` make what is effective of it. -/
theorem ofGroups_grantedGroups (hs : acl.Sorted) :
    ofGroups (grantedGroups acl "read") (grantedGroups acl "write") = effective acl := by
  refine sorted_ofGroups.ext (sorted_effective hs) ?_
  intro group
  rw [get?_ofGroups, get?_effective hs]
  simp only [mem_grantedGroups hs, Bool.decide_eq_true, Bool.or_eq_true]

end ObjectStore.Access
