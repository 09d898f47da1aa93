import ObjectStore.Proofs.Access.StoredRow
import ObjectStore.Proofs.Json.Canonical
import ObjectStore.Proofs.Json.Equality

/-!
# Queries restricted to groups

Restricting a query stores a constraint on a permission column and keeps what the client asked of
that column as one more branch of `$and`. So the restricted query admits a row only if the row is
open to the groups (`isOpenTo_of_admits`), and nothing that the client asked for is lost but an
`$and` that is no list, which gives way to the branch (`admitsBesideAnd_of_admits_restrict`).
-/

namespace ObjectStore.Access

variable {c : Compiler} {v : Valuation} {query branch : Object} {column : String}
  {constraint : Json} {groups : List String}

/-- The `$and` of a query, if there is one, is a list, so a branch can be added. -/
def TakesBranch (query : Object) : Prop :=
  ∀ value, query.get? "$and" = some value → ∃ branches, value = .arr branches

/-- All that a query asks is admitted, but for an `$and` that is no list. -/
structure AdmitsBesideAnd (c : Compiler) (v : Valuation) (query : Object) : Prop where
  others : ∀ entry ∈ query, entry.1 ≠ "$and" → c.AdmitsEntry v entry
  whole : TakesBranch query → c.Admits v query

/-- What a query admits is admitted beside its `$and`. -/
theorem AdmitsBesideAnd.of_admits (h : c.Admits v query) : AdmitsBesideAnd c v query :=
  ⟨fun entry he _ => Compiler.admits_iff.mp h entry he, fun _ => h⟩

/-! ## One more branch -/

/-- A query with one more branch admits what the branch admits. -/
theorem admits_branch_of_addBranch (h : c.Admits v (addBranch query branch)) :
    c.Admits v branch := by
  have hentry := Compiler.admits_iff.mp h _ (Dict.mem_insert_self ..)
  obtain ⟨_, heq, ha⟩ := Compiler.admitsEntry_and.mp hentry (.obj branch) (by simp)
  exact Json.obj.inj heq ▸ ha

/-- A query with one more branch admits what the query admits. -/
theorem admits_of_addBranch (hq : query.Sorted) (htakes : TakesBranch query)
    (h : c.Admits v (addBranch query branch)) : c.Admits v query := by
  rw [Compiler.admits_iff]
  intro entry he
  by_cases hkey : entry.1 = "$and"
  · obtain ⟨key, value⟩ := entry
    subst hkey
    have hget := hq.get?_eq_some_iff.mpr he
    obtain ⟨branches, rfl⟩ := htakes value hget
    have hentry := Compiler.admits_iff.mp h _ (Dict.mem_insert_self ..)
    rw [hget] at hentry
    rw [Compiler.admitsEntry_and] at hentry ⊢
    exact fun b hb => hentry b (List.mem_append_left _ hb)
  · exact Compiler.admits_iff.mp h entry (Dict.mem_insert_of_ne he hkey)

/-- A canonical query with one more canonical branch is canonical, whatever was under `$and` before.
-/
theorem canonical_addBranch (hq : query.Canonical) (hb : branch.Canonical) :
    (addBranch query branch).Canonical := by
  refine hq.insert _ (.arr ?_)
  intro item hi
  rcases List.mem_append.mp hi with hi | hi
  · cases hget : query.get? "$and" with
    | none => simp [hget] at hi
    | some value =>
      cases value with
      | arr branches =>
        rw [hget] at hi
        exact Json.canonical_arr.mp (hq.get? hget) item (by simpa [Json.arr?] using hi)
      | _ => simp [hget, Json.arr?] at hi
  · obtain rfl := List.mem_singleton.mp hi
    exact Object.canonical_iff.mp hb

/-! ## One more constraint on a column -/

/-- A restricted query has the constraint under the column, whether or not the client had asked
something of it. -/
theorem get?_restrict (query : Object) (constraint : Json) (hcolumn : column ≠ "$and") :
    (restrict query column constraint).get? column = some constraint := by
  unfold restrict
  split
  · split
    · exact Dict.get?_insert_self ..
    · rw [addBranch, Dict.get?_insert_of_ne _ _ hcolumn]
      exact Dict.get?_insert_self ..
  · exact Dict.get?_insert_self ..

/-- A restricted query has everything else but its `$and` as it was. -/
theorem get?_restrict_of_ne (query : Object) (constraint : Json) {key : String}
    (hkey : key ≠ column) (hand : key ≠ "$and") :
    (restrict query column constraint).get? key = query.get? key := by
  have hstored := Dict.get?_insert_of_ne query constraint hkey
  unfold restrict
  split
  · split
    · exact hstored
    · rw [addBranch, Dict.get?_insert_of_ne _ _ hand, hstored]
  · exact hstored

/-- All that a query asked besides its `$and` is asked still when a column is restricted. -/
theorem admitsEntry_of_admits_restrict (hq : query.Sorted) (hexact : constraint.isExact = true)
    (h : c.Admits v (restrict query column constraint)) {entry : String × Json}
    (he : entry ∈ query) (hand : entry.1 ≠ "$and") : c.AdmitsEntry v entry := by
  have hvalue := hq.get?_eq_some_iff.mpr he
  by_cases hkey : entry.1 = column
  · rw [hkey] at hvalue
    have hentry : entry = (column, entry.2) := Prod.ext hkey rfl
    rw [hentry]
    simp only [restrict, hvalue] at h
    split at h
    -- the client asked for the same already: `==` on a list of groups is equality
    next hsame =>
      rw [Json.eq_of_beq (Or.inr hexact) hsame]
      exact Compiler.admits_iff.mp h _ (Dict.mem_insert_self ..)
    -- what was asked is a branch of `$and` now
    next => exact Compiler.admits_iff.mp (admits_branch_of_addBranch h) _ List.mem_cons_self
  · rw [← get?_restrict_of_ne query constraint hkey hand] at hvalue
    exact Compiler.admits_iff.mp h _ (Dict.mem_of_get? hvalue)

/-- A restricted query admits what the query with the constraint stored admits, if a branch can be
added. -/
theorem admits_insert_of_admits_restrict (hq : query.Sorted) (hcolumn : column ≠ "$and")
    (htakes : TakesBranch query) (h : c.Admits v (restrict query column constraint)) :
    c.Admits v (query.insert column constraint) := by
  have htakes' : TakesBranch (query.insert column constraint) := fun value hvalue =>
    htakes value (by rwa [Dict.get?_insert_of_ne _ _ hcolumn.symm] at hvalue)
  unfold restrict at h
  split at h
  · split at h
    · exact h
    · exact admits_of_addBranch (hq.insert column constraint) htakes' h
  · exact h

/-- Restricting a column loses nothing of a query but an `$and` that is no list. -/
theorem admitsBesideAnd_of_admits_restrict (hq : query.Sorted) (hcolumn : column ≠ "$and")
    (hexact : constraint.isExact = true) (h : c.Admits v (restrict query column constraint)) :
    AdmitsBesideAnd c v query where
  others _ he hand := admitsEntry_of_admits_restrict hq hexact h he hand
  whole htakes := by
    have hstored := admits_insert_of_admits_restrict hq hcolumn htakes h
    rw [Compiler.admits_iff] at hstored ⊢
    intro entry he
    by_cases hand : entry.1 = "$and"
    · exact hstored entry (Dict.mem_insert_of_ne he (hand ▸ hcolumn.symm))
    · exact admitsEntry_of_admits_restrict hq hexact h he hand

/-- Restricting keeps a query canonical. -/
theorem canonical_restrict (hq : query.Canonical) (hc : constraint.Canonical) :
    (restrict query column constraint).Canonical := by
  unfold restrict
  split
  next previous hprevious =>
    split
    · exact hq.insert column hc
    · refine canonical_addBranch (hq.insert column hc) ⟨Dict.sorted_singleton _, ?_⟩
      intro entry he
      obtain rfl := List.mem_singleton.mp he
      exact hq.get? hprevious
  next => exact hq.insert column hc

/-! ## The restriction to groups -/

theorem oneOf_eq (groups : List String) :
    oneOf groups = .obj [("$in", .arr (.null :: groups.eraseDups.map .str))] := rfl

/-- The constraint to some groups holds no number, so `==` on it is equality. -/
theorem isExact_oneOf (groups : List String) : (oneOf groups).isExact = true := by
  rw [oneOf_eq, Json.isExact_obj]
  refine List.forall_mem_singleton.mpr (Json.isExact_arr.mpr ?_)
  intro item hi
  rcases List.mem_cons.mp hi with rfl | hi
  · rfl
  · obtain ⟨s, _, rfl⟩ := List.mem_map.mp hi
    rfl

theorem canonical_oneOf (groups : List String) : (oneOf groups).Canonical := by
  rw [oneOf_eq]
  refine .obj (Dict.sorted_singleton _) (List.forall_mem_singleton.mpr (.arr ?_))
  intro item hi
  rcases List.mem_cons.mp hi with rfl | hi
  · exact .null
  · obtain ⟨s, _, rfl⟩ := List.mem_map.mp hi
    exact .str s

theorem mem_of_mem_eraseDups {group : String} (h : group ∈ groups.eraseDups) : group ∈ groups := by
  simpa using h

theorem eraseDups_ne_nil (h : groups ≠ []) : groups.eraseDups ≠ [] := by
  cases groups with
  | nil => exact absurd rfl h
  | cons group rest => simp [List.eraseDups_cons]

/-- A query restricted to some groups admits only rows that are open to them. -/
theorem isOpenTo_of_admits {s : Schema} {ignoreCase : Bool} {now : Timestamp} {row : StoredRow}
    (hcolumn : IsPermission column) (hne : groups ≠ [])
    (h : (Compiler.ofSchema s ignoreCase now).AdmitsEntry row.truth (column, oneOf groups)) :
    row.IsOpenTo column groups := by
  obtain ⟨out, hout, hh⟩ := h
  rw [compileEntry_oneOf s ignoreCase now hcolumn (eraseDups_ne_nil hne)] at hout
  obtain rfl := Except.ok.inj hout
  have hopen := (truth_openTo hcolumn).mp (hh _ List.mem_cons_self)
  exact hopen.mono fun group hg => mem_of_mem_eraseDups hg

end ObjectStore.Access
