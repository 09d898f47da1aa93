import ObjectStore.Proofs.Access.Restriction
import ObjectStore.Proofs.Access.Validate
import ObjectStore.Proofs.Query.Entrywise

/-!
# Constraints that move into branches

On request, validation takes the constraints beside an `$or` out of the query and stores each of
them in every branch. A constraint then stands beside the `$or` or in all of its branches
(`Spread`), a fact that every single move keeps up. So it still holds of all rows that the query
admits, if there are branches (`keeps_of_validate`).

An `$or` without branches has nowhere to store a constraint. What is left of such a query is the
`$or` and the constraints that look near to a place, since only these never move
(`mem_of_validate`).
-/

namespace ObjectStore.Access

open Result

variable {moving : Bool} {query settled : Object} {key column : String} {constraint : Json}
  {branches objects : List Object} {checked : CheckedBranches}

/-! ## Checked branches -/

/-- Taking the branches of a combinator changes nothing else. -/
theorem get?_takeBranches_of_ne (h : takeBranches checked query key = .ok settled) {k : String}
    (hk : k ≠ key) : settled.get? k = query.get? k := by
  unfold takeBranches at h
  split at h
  · obtain ⟨branches, _, h⟩ := bind_eq_ok.mp h
    obtain rfl := pure_eq_ok.mp h
    exact Dict.get?_insert_of_ne _ _ hk
  · obtain rfl := Except.ok.inj h
    rfl

/-- Checked branches are objects, as many as there were branches. -/
theorem checkBranches_eq_ok {items items' : List Json}
    (h : checkBranches moving items = .ok items') :
    ∃ objects : List Object, items' = objects.map .obj ∧ objects.length = items.length := by
  induction items generalizing items' with
  | nil =>
    obtain rfl := Except.ok.inj h
    exact ⟨[], rfl, rfl⟩
  | cons branch rest ih =>
    obtain ⟨branch', hbranch, h⟩ := bind_eq_ok.mp h
    obtain ⟨rest', hrest, h⟩ := bind_eq_ok.mp h
    obtain rfl := pure_eq_ok.mp h
    obtain ⟨objects, rfl, hlength⟩ := ih hrest
    cases branch with
    | obj fields =>
      obtain ⟨settled, _, hbranch⟩ := bind_eq_ok.mp hbranch
      obtain rfl := pure_eq_ok.mp hbranch
      exact ⟨settled :: objects, rfl, by simp [hlength]⟩
    | _ => cases hbranch

/-- A query whose `$or` is checked has an `$or` of as many objects, or none if it had none. -/
theorem takeBranches_or_cases
    (h : takeBranches (checkMembers moving query) query "$or" = .ok settled) :
    (query.get? "$or" = none ∧ settled = query) ∨ ∃ (items : List Json) (objects : List Object),
      query.get? "$or" = some (.arr items) ∧ checkBranches moving items = .ok (objects.map .obj)
        ∧ settled = query.insert "$or" (.arr (objects.map .obj))
        ∧ objects.length = items.length := by
  rw [takeBranches, get?_checkMembers moving query rfl] at h
  cases hor : query.get? "$or" with
  | none =>
    rw [hor] at h
    exact Or.inl ⟨rfl, (Except.ok.inj h).symm⟩
  | some value =>
    rw [hor] at h
    obtain ⟨items', hitems, h⟩ := bind_eq_ok.mp h
    obtain rfl := pure_eq_ok.mp h
    cases value with
    | arr items =>
      rw [checkClause, allowsNoBranches, if_neg (by simp)] at hitems
      obtain ⟨objects, rfl, hlength⟩ := checkBranches_eq_ok hitems
      exact Or.inr ⟨items, objects, rfl, hitems, rfl, hlength⟩
    | _ => cases hitems

/-! ## One move -/

/-- A constraint stays where it is, or it leaves the query and enters all branches, none of which
has one under its key. -/
theorem moveIntoBranches_cases (branches : List Object)
    (hor : query.get? "$or" = some (.arr (branches.map .obj))) (key : String) :
    (moveIntoBranches query key = query ∧ ∀ value, query.get? key = some value →
      looksNear value = true ∨ ∃ branch ∈ branches, branch.get? key ≠ none) ∨
    ∃ value, query.get? key = some value ∧ looksNear value = false
      ∧ (∀ branch ∈ branches, branch.get? key = none)
      ∧ moveIntoBranches query key = (query.erase key).insert "$or"
          (.arr ((branches.map (Dict.insert · key value)).map .obj)) := by
  have hany : (branches.map Json.obj).any (fun branch => (branch.get? key).isSome) = true ↔
      ∃ branch ∈ branches, branch.get? key ≠ none := by
    simp [Json.get?, Option.isSome_iff_ne_none]
  have hextend : ∀ value, (branches.map Json.obj).map (extendBranch key value)
      = (branches.map (Dict.insert · key value)).map Json.obj := by
    intro value
    rw [List.map_map, List.map_map]
    rfl
  unfold moveIntoBranches
  rw [hor]
  cases hvalue : query.get? key with
  | none => exact Or.inl ⟨rfl, fun _ h => by cases h⟩
  | some value =>
    dsimp only
    split
    next hstays =>
      rw [Bool.or_eq_true, hany] at hstays
      exact Or.inl ⟨rfl, fun _ h => Option.some.inj h ▸ hstays⟩
    next hmoves =>
      rw [Bool.or_eq_true, hany, not_or] at hmoves
      refine Or.inr ⟨value, rfl, Bool.eq_false_iff.mpr hmoves.1, ?_, by rw [hextend]⟩
      intro branch hb
      exact Decidable.byContradiction fun h => hmoves.2 ⟨branch, hb, h⟩

/-! ## An `$or` with branches -/

/-- A constraint stands beside an `$or` that has branches, or in each of them. -/
structure Spread (column : String) (constraint : Json) (query : Object) (branches : List Object) :
    Prop where
  or_eq : query.get? "$or" = some (.arr (branches.map .obj))
  ne_nil : branches ≠ []
  kept : query.get? column = some constraint ∨
    ∀ branch ∈ branches, branch.get? column = some constraint

/-- One move leaves a constraint beside the `$or` or in each of its branches. -/
theorem Spread.moveIntoBranches (h : Spread column constraint query branches)
    (hcolumn : column ≠ "$or") (key : String) :
    ∃ branches', Spread column constraint (moveIntoBranches query key) branches' := by
  rcases moveIntoBranches_cases branches h.or_eq key with
    ⟨heq, _⟩ | ⟨value, hvalue, _, hbranches, heq⟩ <;> rw [heq]
  · exact ⟨branches, h⟩
  refine ⟨branches.map (Dict.insert · key value), Dict.get?_insert_self .., by simpa using h.ne_nil,
    ?_⟩
  by_cases hkey : column = key
  · -- the constraint itself moves, so it was beside the branches and is in all of them now
    subst hkey
    refine Or.inr (List.forall_mem_map.mpr ?_)
    intro branch hb
    rcases h.kept with hquery | hall
    · rw [Dict.get?_insert_self, ← hvalue, hquery]
    · exact absurd (hbranches branch hb) (by simp [hall branch hb])
  · refine h.kept.imp ?_ fun hall => List.forall_mem_map.mpr ?_
    · intro hquery
      rw [Dict.get?_insert_of_ne _ _ hcolumn, Dict.get?_erase_of_ne hkey, hquery]
    · intro branch hb
      rw [Dict.get?_insert_of_ne _ _ hkey, hall branch hb]

/-- Moving all constraints leaves each of them beside the `$or` or in each of its branches. -/
theorem Spread.restructure (h : Spread column constraint query branches)
    (hcolumn : column ≠ "$or") :
    ∃ branches', Spread column constraint (restructure query) branches' := by
  unfold Access.restructure
  generalize query.keys.filter (· != "$or") = keys
  induction keys generalizing query branches with
  | nil => exact ⟨branches, h⟩
  | cons key rest ih =>
    obtain ⟨branches', h'⟩ := h.moveIntoBranches hcolumn key
    exact ih h'

/-- A query asks for a constraint by itself, or in each branch of its `$or`. -/
def Keeps (column : String) (constraint : Json) (query : Object) : Prop :=
  query.get? column = some constraint ∨ ∃ branches, Spread column constraint query branches

/-- What a query looks up under two keys decides what it asks for. -/
theorem Keeps.of_get?_eq {other : Object} (h : Keeps column constraint query)
    (hcolumn : other.get? column = query.get? column) (hor : other.get? "$or" = query.get? "$or") :
    Keeps column constraint other := by
  rcases h with h | ⟨branches, h⟩
  · exact Or.inl (hcolumn.trans h)
  · exact Or.inr ⟨branches, hor.trans h.or_eq, h.ne_nil, h.kept.imp_left hcolumn.trans⟩

/-- Validation loses no constraint, as long as it moves none into an `$or` without branches. -/
theorem keeps_of_validate (hcolumn : (Combinator.ofKey? column).isSome = false)
    (hquery : query.get? column = some constraint)
    (hbranches : moving = true → query.get? "$or" ≠ some (.arr []))
    (h : validate moving query = .ok settled) : Keeps column constraint settled := by
  have hne : ∀ key ∈ ["$or", "$and", "$nor"], column ≠ key := by
    rintro key hkey rfl
    rw [isSome_ofKey? hkey] at hcolumn
    cases hcolumn
  obtain ⟨_, ors, ands, hors, hands, hnors, _⟩ := settle_eq_ok h
  have hkept : Keeps column constraint
      (if moving && ors.contains "$or" then restructure ors else ors) := by
    have hors' : ors.get? column = some constraint :=
      (get?_takeBranches_of_ne hors (hne "$or" (by simp))).trans hquery
    split
    next hmoves =>
      rw [Bool.and_eq_true] at hmoves
      obtain ⟨value, hvalue⟩ := Dict.contains_iff.mp hmoves.2
      rcases takeBranches_or_cases hors with
        ⟨hnone, rfl⟩ | ⟨items, objects, hor, _, rfl, hlength⟩
      · cases hnone.symm.trans hvalue
      -- as many branches are checked as there were, so there is one to move into
      · have hitems : items ≠ [] := fun hnil => hbranches hmoves.1 (hnil ▸ hor)
        have hobjects : objects ≠ [] := fun hnil =>
          hitems (List.eq_nil_of_length_eq_zero (by rw [← hlength, hnil]; rfl))
        exact Or.inr (Spread.restructure ⟨Dict.get?_insert_self .., hobjects, Or.inl hors'⟩
          (hne "$or" (by simp)))
    next => exact Or.inl hors'
  have hands' : Keeps column constraint ands := hkept.of_get?_eq
    (get?_takeBranches_of_ne hands (hne "$and" (by simp)))
    (get?_takeBranches_of_ne hands (by decide))
  exact hands'.of_get?_eq (get?_takeBranches_of_ne hnors (hne "$nor" (by simp)))
    (get?_takeBranches_of_ne hnors (by decide))

/-- What a query asks for by itself or in each branch holds of all rows that it admits. -/
theorem admitsEntry_of_keeps {c : Compiler} {v : Valuation} (hkeeps : Keeps column constraint query)
    (h : c.Admits v query) : c.AdmitsEntry v (column, constraint) := by
  rw [Compiler.admits_iff] at h
  obtain hquery | ⟨branches, hspread⟩ := hkeeps
  · exact h _ (Dict.mem_of_get? hquery)
  obtain hquery | hall := hspread.kept
  · exact h _ (Dict.mem_of_get? hquery)
  · obtain ⟨fields, hmem, ha⟩ := Compiler.exists_branch_of_admits_or
      (h _ (Dict.mem_of_get? hspread.or_eq)) (by simpa using hspread.ne_nil)
    obtain ⟨branch, hb, heq⟩ := List.mem_map.mp hmem
    obtain rfl := Json.obj.inj heq
    exact Compiler.admits_iff.mp ha _ (Dict.mem_of_get? (hall branch hb))

/-! ## An `$or` without branches -/

/-- Moving constraints into no branches drops them, except for those that look near to a place. -/
theorem mem_of_mem_foldl (hq : query.Sorted) (hor : query.get? "$or" = some (.arr []))
    {keys : List String} (hkeys : "$or" ∉ keys) {entry : String × Json}
    (h : entry ∈ keys.foldl moveIntoBranches query) :
    entry = ("$or", .arr []) ∨
      (entry ∈ query ∧ (entry.1 ∈ keys → looksNear entry.2 = true)) := by
  induction keys generalizing query with
  | nil => exact Or.inr ⟨h, fun hmem => (List.not_mem_nil hmem).elim⟩
  | cons key rest ih =>
    rw [List.mem_cons, not_or] at hkeys
    rw [List.foldl_cons] at h
    rcases moveIntoBranches_cases [] hor key with
      ⟨heq, hstays⟩ | ⟨value, hvalue, _, _, heq⟩ <;> rw [heq] at h
    -- a constraint that stays has no branch with its key to stay for, so it looks near to a place
    · refine (ih hq hor hkeys.2 h).imp_right fun ⟨hmem, hnear⟩ => ⟨hmem, ?_⟩
      intro hkey
      rcases List.mem_cons.mp hkey with rfl | hkey
      · have hvalue := hq.get?_eq_some_iff.mpr hmem
        rcases hstays _ hvalue with hnear | ⟨_, hb, _⟩
        · exact hnear
        · exact (List.not_mem_nil hb).elim
      · exact hnear hkey
    · have hor' : Dict.get? ((query.erase key).insert "$or" (.arr [])) "$or" = some (.arr []) :=
        Dict.get?_insert_self ..
      rcases ih ((hq.erase key).insert "$or" _) hor' hkeys.2 h with rfl | ⟨hmem, hnear⟩
      · exact Or.inl rfl
      · rcases Dict.mem_insert hmem with rfl | hmem
        · exact Or.inl rfl
        · rw [Dict.mem_erase] at hmem
          refine Or.inr ⟨hmem.1, fun hkey => hnear ?_⟩
          exact (List.mem_cons.mp hkey).resolve_left hmem.2

/-- What is left of a query with an `$or` without branches: the `$or`, and constraints that look
near to a place. -/
theorem mem_restructure (hq : query.Sorted) (hor : query.get? "$or" = some (.arr []))
    {entry : String × Json} (h : entry ∈ restructure query) :
    entry = ("$or", .arr []) ∨ (entry ∈ query ∧ looksNear entry.2 = true) := by
  have hkeys : "$or" ∉ query.keys.filter (· != "$or") := by simp
  rcases mem_of_mem_foldl hq hor hkeys h with heq | ⟨hmem, hnear⟩
  · exact Or.inl heq
  · by_cases hkey : entry.1 = "$or"
    · have hvalue := hq.get?_eq_some_iff.mpr hmem
      rw [hkey, hor] at hvalue
      exact Or.inl (Prod.ext hkey (Option.some.inj hvalue).symm)
    · have hmoves : entry.1 ∈ query.keys.filter (· != "$or") :=
        List.mem_filter.mpr ⟨List.mem_map_of_mem hmem, by simpa using hkey⟩
      exact Or.inr ⟨hmem, hnear hmoves⟩

theorem exists_obj_of_looksNear {value : Json} (h : looksNear value = true) :
    ∃ fields, value = .obj fields := by
  cases value with
  | obj fields => exact ⟨fields, rfl⟩
  | _ => simp [looksNear, Json.get?] at h

/-- What looks near to a place has no branches to check. -/
theorem checkClause_ne_ok {value : Json} {items : List Json} (h : looksNear value = true) :
    checkClause moving key value ≠ .ok items := by
  obtain ⟨fields, rfl⟩ := exists_obj_of_looksNear h
  simp [checkClause]

/-- The keys of a valid query are query keys. -/
theorem isQueryKey_of_validate (h : validate moving query = .ok settled) {entry : String × Json}
    (hentry : entry ∈ settled) : isQueryKey entry.1 = true := by
  obtain ⟨_, ors, ands, _, _, _, hmembers⟩ := settle_eq_ok h
  have hmember := eq_ok_of_forM hmembers hentry
  unfold validateMember at hmember
  obtain ⟨_, _, hmember⟩ := bind_eq_ok.mp hmember
  cases hkey : isQueryKey entry.1 with
  | true => rfl
  | false =>
    rw [hkey] at hmember
    exact absurd hmember throw_ne_ok

/-- A combinator that looks near to a place, or is not there, has no branches to take. -/
theorem takeBranches_eq_self_of_near {other : Object}
    (hkey : (Combinator.ofKey? key).isSome = true)
    (hnear : ∀ value, other.get? key = some value →
      query.get? key = some value ∧ looksNear value = true)
    (h : takeBranches (checkMembers moving query) other key = .ok settled) : settled = other := by
  unfold takeBranches at h
  split at h
  next value result hvalue hresult =>
    obtain ⟨hquery, hlooks⟩ := hnear value hvalue
    obtain ⟨items, rfl, _⟩ := bind_eq_ok.mp h
    rw [get?_checkMembers moving query hkey, hquery] at hresult
    exact absurd (Option.some.inj hresult) (checkClause_ne_ok hlooks)
  next => exact (Except.ok.inj h).symm

/-- What a query with an `$or` without branches is validated to: the `$or`, and constraints that
look near to a place. -/
theorem mem_of_validate (hq : query.Sorted) (hor : query.get? "$or" = some (.arr []))
    (h : validate true query = .ok settled) : ∀ entry ∈ settled,
      entry = ("$or", .arr []) ∨ (entry ∈ query ∧ looksNear entry.2 = true) := by
  obtain ⟨_, ors, ands, hors, hands, hnors, _⟩ := settle_eq_ok h
  have hchecked : ∀ value items, query.get? "$or" = some value →
      Dict.get? (checkMembers true query) "$or" = some (.ok items) → value = .arr items := by
    intro value items hvalue hitems
    rw [get?_checkMembers true query rfl, hor] at hitems
    obtain rfl := Option.some.inj (hor.symm.trans hvalue)
    obtain rfl := Except.ok.inj (Option.some.inj hitems)
    rfl
  obtain rfl := takeBranches_eq_self hq hchecked hors
  rw [if_pos (by rw [Dict.contains, hor]; rfl)] at hands
  -- of the combinators only the `$or` is left, so the two steps after the move change nothing
  have hnear : ∀ key ≠ "$or", ∀ value, (restructure ors).get? key = some value →
      ors.get? key = some value ∧ looksNear value = true := by
    intro key hne value hvalue
    rcases mem_restructure hq hor (Dict.mem_of_get? hvalue) with heq | ⟨hmem, hlooks⟩
    · exact absurd (congrArg Prod.fst heq) hne
    · exact ⟨hq.get?_eq_some_iff.mpr hmem, hlooks⟩
  obtain rfl := takeBranches_eq_self_of_near rfl (hnear "$and" (by decide)) hands
  obtain rfl := takeBranches_eq_self_of_near rfl (hnear "$nor" (by decide)) hnors
  exact fun entry => mem_restructure hq hor

end ObjectStore.Access
