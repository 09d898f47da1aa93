import ObjectStore.Proofs.Access.Acl
import ObjectStore.Proofs.Result

/-!
# Permission columns of objects to be stored

An object is stored with its two permission columns. An `ACL` gives way to both of them
(`toColumns_eq_ok`); what an object does not say of them by itself is filled in by a default, as are
its id and its times. A default stands for what is missing and changes nothing else.
-/

namespace ObjectStore.Access

open Result

variable {object stored : Object} {name key : String} {value : Json} {fields : List String}
  {member : String × Json}

/-! ## Defaults -/

/-- A default stands for what is missing only. -/
theorem get?_withDefault_self (object : Object) (key : String) (value : Json) :
    (withDefault object key value).get? key = some ((object.get? key).getD value) := by
  unfold withDefault
  cases hget : object.get? key with
  | none => simp [Dict.contains, hget]
  | some _ => simp [Dict.contains, hget]

/-- A default for one field leaves the others as they are. -/
theorem get?_withDefault_of_ne (h : name ≠ key) :
    (withDefault object key value).get? name = object.get? name := by
  unfold withDefault
  split
  · rfl
  · exact Dict.get?_insert_of_ne _ _ h

/-- An object is still sorted with a default. -/
theorem sorted_withDefault (h : object.Sorted) : (withDefault object key value).Sorted := by
  unfold withDefault
  split
  · exact h
  · exact h.insert _ _

/-- A member of an object with a default is the default, or it was there. -/
theorem mem_withDefault (h : member ∈ withDefault object key value) :
    member = (key, value) ∨ member ∈ object := by
  unfold withDefault at h
  split at h
  · exact Or.inr h
  · exact Dict.mem_insert h

/-- Defaults for some fields leave the others as they are. -/
theorem get?_foldl_withDefault (h : name ∉ fields) :
    (fields.foldl (fun object field => withDefault object field value) object).get? name
      = object.get? name := by
  induction fields generalizing object with
  | nil => rfl
  | cons field rest ih =>
    rw [List.mem_cons, not_or] at h
    rw [List.foldl_cons, ih h.2, get?_withDefault_of_ne h.1]

/-- An object is still sorted with defaults for some fields. -/
theorem sorted_foldl_withDefault (h : object.Sorted) :
    (fields.foldl (fun object field => withDefault object field value) object).Sorted := by
  induction fields generalizing object with
  | nil => exact h
  | cons field rest ih => exact ih (sorted_withDefault h)

/-- A member of an object with defaults for some fields has their value, or it was there. -/
theorem mem_foldl_withDefault
    (h : member ∈ fields.foldl (fun object field => withDefault object field value) object) :
    member.2 = value ∨ member ∈ object := by
  induction fields generalizing object with
  | nil => exact Or.inr h
  | cons field rest ih =>
    rcases ih h with h | h
    · exact Or.inl h
    · exact (mem_withDefault h).imp_left fun h => congrArg Prod.snd h

/-- A default stands for each field that is missing. -/
theorem get?_foldl_withDefault_of_mem (h : name ∈ fields) :
    (fields.foldl (fun object field => withDefault object field value) object).get? name
      = some ((object.get? name).getD value) := by
  induction fields generalizing object with
  | nil => cases h
  | cons field rest ih =>
    rw [List.foldl_cons]
    -- a field that is listed more than once is filled in the first time
    by_cases hrest : name ∈ rest
    · rw [ih hrest]
      by_cases hfield : name = field
      · rw [hfield, get?_withDefault_self, Option.getD_some]
      · rw [get?_withDefault_of_ne hfield]
    · obtain rfl := (List.mem_cons.mp h).resolve_right hrest
      rw [get?_foldl_withDefault hrest, get?_withDefault_self]

/-! ## Columns for an `ACL` -/

/-- An object has the groups that its `ACL` grants rights to in its place, if it has one. -/
theorem toColumns_eq_ok (h : toColumns object = .ok stored) :
    (object.get? aclField = none ∧ stored = object) ∨
      ∃ acl, object.get? aclField = some (.obj acl)
        ∧ stored = ((object.erase aclField).insert readColumn
            (.ofStrings (grantedGroups acl "read"))).insert writeColumn
            (.ofStrings (grantedGroups acl "write")) := by
  unfold toColumns at h
  split at h
  next hacl => exact Or.inl ⟨hacl, (Except.ok.inj h).symm⟩
  next acl hacl =>
    rw [grantees_eq, grantees_eq] at h
    exact Or.inr ⟨acl, hacl, (Except.ok.inj h).symm⟩
  next => cases h

/-- The permission columns are what the object says of them, unless it has an `ACL`; then they are
lists of groups. -/
theorem get?_toColumns (h : toColumns object = .ok stored)
    (hname : name ∈ [readColumn, writeColumn]) :
    (object.get? aclField = none ∧ stored.get? name = object.get? name) ∨
      (object.get? aclField ≠ none ∧ ∃ groups, stored.get? name = some (.ofStrings groups)) := by
  obtain ⟨hacl, rfl⟩ | ⟨acl, hacl, rfl⟩ := toColumns_eq_ok h
  · exact Or.inl ⟨hacl, rfl⟩
  · refine Or.inr ⟨by simp [hacl], ?_⟩
    simp only [List.mem_cons, List.not_mem_nil, or_false] at hname
    rcases hname with rfl | rfl
    · rw [Dict.get?_insert_of_ne _ _ (by decide), Dict.get?_insert_self]
      exact ⟨_, rfl⟩
    · rw [Dict.get?_insert_self]
      exact ⟨_, rfl⟩

/-- Fields other than the `ACL` and the two columns are as they were. -/
theorem get?_toColumns_of_ne (h : toColumns object = .ok stored)
    (hname : name ∉ [aclField, readColumn, writeColumn]) : stored.get? name = object.get? name := by
  simp only [List.mem_cons, List.not_mem_nil, or_false, not_or] at hname
  obtain ⟨hacl, hread, hwrite⟩ := hname
  obtain ⟨-, rfl⟩ | ⟨acl, -, rfl⟩ := toColumns_eq_ok h
  · rfl
  · rw [Dict.get?_insert_of_ne _ _ hwrite, Dict.get?_insert_of_ne _ _ hread,
      Dict.get?_erase_of_ne hacl]

/-- An object is still sorted with the columns in the place of its `ACL`. -/
theorem sorted_toColumns (h : toColumns object = .ok stored) (hs : object.Sorted) :
    stored.Sorted := by
  obtain ⟨-, rfl⟩ | ⟨acl, -, rfl⟩ := toColumns_eq_ok h
  · exact hs
  · exact ((hs.erase _).insert _ _).insert _ _

/-- Only lists of groups are put in the place of an `ACL`. -/
theorem mem_toColumns (h : toColumns object = .ok stored) (hmem : member ∈ stored) :
    member ∈ object ∨ ∃ groups, member.2 = .ofStrings groups := by
  obtain ⟨-, rfl⟩ | ⟨acl, -, rfl⟩ := toColumns_eq_ok h
  · exact Or.inl hmem
  · rcases Dict.mem_insert hmem with rfl | hmem
    · exact Or.inr ⟨_, rfl⟩
    · rcases Dict.mem_insert hmem with rfl | hmem
      · exact Or.inr ⟨_, rfl⟩
      · exact Or.inl (Dict.mem_erase.mp hmem).1

end ObjectStore.Access
