import ObjectStore.Proofs.Access.Pointer
import ObjectStore.Proofs.Access.Validity

/-!
# Restrictions for more groups ask for less

The restriction of a query to some groups says the same as the query and the constraint on the
column, whatever is said of queries entry by entry (`entrywise_restrict_iff`). With more groups the
constraint lets more rows pass (`admitsEntry_oneOf_iff`), and pointer fields are needed less: the
query is left as it is, or restricted to the same pointers (`restrictToPointers_wider`), and what
pointers restrict it to asks for all that it asks (`of_restrictToPointers`).

There is one way in which a restriction may ask for less than its query: an `$and` that is no list
gives way to what was asked of the column. `KeepsAnd` excludes it.
-/

namespace ObjectStore.Access

open Result Query

variable {P : Object → Prop} {PEntry : String × Json → Prop} {s : Schema} {op : Operation}
  {groups wider : List String} {query permitted : Object} {column field user : String}
  {constraint : Json}

/-! ## One more branch, one more constraint -/

/-- A query of which something is said entry by entry has a list for an `$and`, if it has one. -/
theorem takesBranch_of_entrywise (hP : Entrywise P PEntry) (hq : query.Canonical) (h : P query) :
    TakesBranch query := by
  intro value hvalue
  obtain ⟨branches, rfl, _⟩ := hP.and.mp ((hP.entries hq).mp h _ (Dict.mem_of_get? hvalue))
  exact ⟨branches, rfl⟩

/-- What is said of a query with one more branch is said of the query and of the branch. -/
theorem entrywise_addBranch_iff (hP : Entrywise P PEntry) {branch : Object} (hq : query.Canonical)
    (hb : branch.Canonical) (htakes : TakesBranch query) :
    P (addBranch query branch) ↔ P query ∧ P branch := by
  -- the branches that there are already are what `$and` has
  have hand : PEntry ("$and", .arr (((query.get? "$and").bind Json.arr?).getD [] ++ [.obj branch]))
      ↔ (∀ value, query.get? "$and" = some value → PEntry ("$and", value)) ∧ P branch := by
    have hlast : (∃ fields, Json.obj branch = .obj fields ∧ P fields) ↔ P branch := by
      simp
    cases hget : query.get? "$and" with
    | none => simp [hP.and]
    | some value =>
      obtain ⟨branches, rfl⟩ := htakes value hget
      simp only [hP.and, Option.bind_some, Json.arr?, Option.getD_some, Json.arr.injEq,
        exists_eq_left', List.forall_mem_append, List.forall_mem_singleton, hlast,
        Option.some.injEq, forall_eq']
  rw [hP.entries (canonical_addBranch hq hb), hP.entries hq]
  constructor
  · intro h
    obtain ⟨hbefore, hbranch⟩ := hand.mp (h _ (Dict.mem_insert_self ..))
    refine ⟨?_, hbranch⟩
    intro entry he
    by_cases hkey : entry.1 = "$and"
    · have hget := hq.sorted.get?_eq_some_iff.mpr he
      rw [hkey] at hget
      have hentry : entry = ("$and", entry.2) := Prod.ext hkey rfl
      exact hentry ▸ hbefore _ hget
    · exact h entry (Dict.mem_insert_of_ne he hkey)
  · rintro ⟨h, hbranch⟩ entry he
    rcases Dict.mem_insert he with rfl | he
    · exact hand.mpr ⟨fun value hvalue => h _ (Dict.mem_of_get? hvalue), hbranch⟩
    · exact h entry he

/-- What is said of a query with a constraint stored is said of the constraint, and of the query but
for what it had there. -/
theorem entrywise_insert_iff (hP : Entrywise P PEntry) (hq : query.Canonical)
    (hc : constraint.Canonical) : P (query.insert column constraint) ↔
      PEntry (column, constraint) ∧ ∀ entry ∈ query, entry.1 ≠ column → PEntry entry := by
  rw [hP.entries (hq.insert column hc)]
  constructor
  · intro h
    refine ⟨h _ (Dict.mem_insert_self ..), ?_⟩
    intro entry he hkey
    exact h entry (Dict.mem_insert_of_ne he hkey)
  · rintro ⟨hconstraint, hothers⟩ entry he
    by_cases hkey : entry.1 = column
    · have hget := (hq.insert column hc).sorted.get?_eq_some_iff.mpr he
      rw [hkey, Dict.get?_insert_self] at hget
      have hentry : entry = (column, constraint) := Prod.ext hkey (Option.some.inj hget).symm
      exact hentry ▸ hconstraint
    · rcases Dict.mem_insert he with rfl | he
      · exact absurd rfl hkey
      · exact hothers entry he hkey

/-- What is said of a restricted query is said of the query and of the constraint, if an `$and` of
the query can take a branch or none is added. -/
theorem entrywise_restrict_iff (hP : Entrywise P PEntry) (hq : query.Canonical)
    (hc : constraint.Canonical) (hexact : constraint.isExact = true) (hcolumn : column ≠ "$and")
    (hkept : TakesBranch query ∨ query.get? column = none) :
    P (restrict query column constraint) ↔ P query ∧ PEntry (column, constraint) := by
  unfold restrict
  split
  next previous hprevious =>
    have hmem := Dict.mem_of_get? hprevious
    split
    next hsame =>
      -- the client asked for the same already: `==` on a list of groups is equality
      obtain rfl := Json.eq_of_beq (Or.inr hexact) hsame
      rw [hq.sorted.insert_eq_self hprevious]
      exact ⟨fun h => ⟨h, (hP.entries hq).mp h _ hmem⟩, fun h => h.1⟩
    next =>
      have htakes : TakesBranch query := hkept.resolve_right (by simp [hprevious])
      have htakes' : TakesBranch (query.insert column constraint) := fun value hvalue =>
        htakes value (by rwa [Dict.get?_insert_of_ne _ _ hcolumn.symm] at hvalue)
      have hbranch : Object.Canonical [(column, previous)] :=
        ⟨Dict.sorted_singleton _, List.forall_mem_singleton.mpr (hq.get? hprevious)⟩
      rw [entrywise_addBranch_iff hP (hq.insert column hc) hbranch htakes',
        entrywise_insert_iff hP hq hc, hP.entries hbranch, hP.entries hq,
        List.forall_mem_singleton]
      constructor
      · rintro ⟨⟨hconstraint, hothers⟩, hprev⟩
        refine ⟨?_, hconstraint⟩
        intro entry he
        by_cases hkey : entry.1 = column
        · have hget := hq.sorted.get?_eq_some_iff.mpr he
          rw [hkey, hprevious] at hget
          have hentry : entry = (column, previous) := Prod.ext hkey (Option.some.inj hget).symm
          exact hentry ▸ hprev
        · exact hothers entry he hkey
      · exact fun ⟨h, hconstraint⟩ => ⟨⟨hconstraint, fun entry he _ => h entry he⟩, h _ hmem⟩
  next hnone =>
    rw [entrywise_insert_iff hP hq hc, hP.entries hq, and_comm]
    refine and_congr_left fun _ => forall₂_congr ?_
    intro entry he
    have hne : entry.1 ≠ column := by
      rintro rfl
      simp [hq.sorted.get?_eq_some_iff.mpr he] at hnone
    simp [hne]

/-! ## Pointer fields -/

/-- What is said of what is left of an `$and` is said of all that is left. -/
theorem aloneWith_and_iff (hP : Entrywise P PEntry) {left : List Object}
    (hleft : (aloneWith "$and" left).Canonical) :
    P (aloneWith "$and" left) ↔ ∀ fields ∈ left, P fields := by
  have hlist : ∀ left : List Object, Object.Canonical [("$and", .arr (left.map .obj))] →
      (P [("$and", .arr (left.map .obj))] ↔ ∀ fields ∈ left, P fields) := by
    intro left hcanonical
    rw [hP.entries hcanonical, List.forall_mem_singleton, hP.and]
    simp
  match left with
  | [] => exact hlist [] hleft
  | [only] => exact List.forall_mem_singleton.symm
  | first :: second :: rest => exact hlist _ hleft

/-- What is said of what is left of an `$or` is said of something that is left. -/
theorem exists_of_aloneWith_or (hP : Entrywise P PEntry) {left : List Object} (hne : left ≠ [])
    (hleft : (aloneWith "$or" left).Canonical) (h : P (aloneWith "$or" left)) :
    ∃ fields ∈ left, P fields := by
  match left with
  | [only] => exact ⟨only, List.mem_cons_self, h⟩
  | first :: second :: rest =>
    obtain ⟨fields, hmem, hfields⟩ :=
      hP.or ((hP.entries hleft).mp h _ List.mem_cons_self) (by simp)
    obtain ⟨_, hf, heq⟩ := List.mem_map.mp hmem
    exact ⟨fields, Json.obj.inj heq ▸ hf, hfields⟩

/-- What is said of an alternative is said of the query and of the constraint of its pointer. -/
theorem entrywise_alternative_iff (hP : Entrywise P PEntry) (hq : query.Canonical)
    (hp : pointsTo s field user = .ok constraint) :
    P (alternative query field constraint) ↔ P query ∧ PEntry (field, constraint) := by
  have hcanonical := canonical_alternative hq hp
  unfold alternative at hcanonical ⊢
  split
  next hfield =>
    rw [if_pos hfield] at hcanonical
    obtain ⟨left, hmem, hleft, hreduced⟩ := exists_reducedPair hq.sorted field constraint
    have hpointer : Object.Canonical [(field, constraint)] :=
      ⟨Dict.sorted_singleton _, List.forall_mem_singleton.mpr (canonical_pointsTo hp)⟩
    have hpair : ∀ fields ∈ [[(field, constraint)], query], Object.Canonical fields :=
      List.forall_mem_cons.mpr ⟨hpointer, List.forall_mem_singleton.mpr hq⟩
    have hsaid : P [(field, constraint)] ↔ PEntry (field, constraint) := by
      rw [hP.entries hpointer, List.forall_mem_singleton]
    rw [hreduced] at hcanonical ⊢
    rw [aloneWith_and_iff hP hcanonical]
    constructor
    · intro h
      obtain ⟨hconstraint, hquery⟩ := forall_of_reducedPair (P := PEntry)
        (isExact_pointerBranch hp) hleft fun fields hf =>
          (hP.entries (hpair fields (hmem fields hf))).mp (h fields hf)
      exact ⟨(hP.entries hq).mpr hquery, hconstraint _ List.mem_cons_self⟩
    · rintro ⟨hquery, hconstraint⟩ fields hf
      rcases List.mem_cons.mp (hmem fields hf) with rfl | hf
      · exact hsaid.mpr hconstraint
      · exact List.mem_singleton.mp hf ▸ hquery
  next hfield =>
    have habsent : ∀ entry ∈ query, entry.1 ≠ field := by
      rintro entry he rfl
      exact hfield (Dict.contains_iff.mpr ⟨entry.2, hq.sorted.get?_eq_some_iff.mpr he⟩)
    rw [entrywise_insert_iff hP hq (canonical_pointsTo hp), hP.entries hq, and_comm]
    exact and_congr_left fun _ => forall₂_congr fun entry he => by simp [habsent entry he]

/-- What is said of all alternatives together is said of one of them. -/
theorem exists_of_anyAlternative (hP : Entrywise P PEntry) {alternatives : List Object}
    (hne : alternatives ≠ []) (hcanonical : ∀ made ∈ alternatives, made.Canonical)
    (h : P (anyAlternative alternatives)) : ∃ made ∈ alternatives, P made := by
  obtain ⟨left, hleft, hmem, _, hany⟩ :=
    exists_anyAlternative hne fun made hm => (hcanonical made hm).sorted
  obtain ⟨made, hm, hmade⟩ := exists_of_aloneWith_or hP hleft
    (canonical_aloneWith fun fields hf => hcanonical fields (hmem fields hf)) (hany ▸ h)
  exact ⟨made, hmem made hm, hmade⟩

/-- The constraint on a permission column is admitted where the row is open to one of the groups. -/
theorem admitsEntry_oneOf_iff {ignoreCase : Bool} {now : Timestamp} {row : StoredRow}
    (hcolumn : IsPermission column) :
    (Compiler.ofSchema s ignoreCase now).AdmitsEntry row.truth (column, oneOf groups)
      ↔ row.IsOpenTo column groups := by
  by_cases hne : groups = []
  · -- without any groups, only rows without a list are asked for
    subst hne
    obtain ⟨cell, hcell⟩ := hcolumn.cell?_eq row
    have habsent : row.truth (absentClause column) = some cell.isNone := by
      simp [absentClause, Sql.name, Sql.text, StoredRow.truth, hcell]
    have hclause : FieldRef.arrayIsIn ⟨column, some (.arrayOf .string), false⟩ [.null]
        = .clause (absentClause column) := rfl
    have hadmits : (Compiler.ofSchema s ignoreCase now).AdmitsEntry row.truth (column, oneOf [])
        ↔ row.truth (absentClause column) = some true := by
      simp [Compiler.AdmitsEntry, compileEntry_oneOf_eq s ignoreCase now hcolumn, hclause,
        Compiled.ofPredicate, Compiled.Holds]
    rw [hadmits, habsent]
    cases cell <;> simp [StoredRow.IsOpenTo, hcell]
  · refine ⟨isOpenTo_of_admits hcolumn hne, ?_⟩
    intro hopen
    refine ⟨_, compileEntry_oneOf s ignoreCase now hcolumn (eraseDups_ne_nil hne), ?_⟩
    have hclause : (openTo column groups.eraseDups).truth row.truth = some true :=
      (truth_openTo hcolumn).mpr (hopen.mono fun group hg => by simpa using hg)
    exact List.forall_mem_singleton.mpr hclause

end ObjectStore.Access
