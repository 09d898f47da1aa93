import ObjectStore.Proofs.Access.Moving
import ObjectStore.Proofs.Access.Pointer
import ObjectStore.Proofs.Query.Leaves

/-!
# What a restricted and validated query asks about

Restricting a query adds constraints on pointer fields and on a permission column, and validating it
may move constraints into branches. Neither asks about anything else: what a query asks about after
it, at any depth, it asked about before, or it is one of these columns.
-/

namespace ObjectStore.Access

open Result
open Compiler (AsksOnly asksOnly_iff asksOnly_branches asksOnly_single)

variable {P : String → Prop} {s : Schema} {op : Operation} {groups : List String}
  {field user column key : String} {constraint : Json} {query permitted settled : Object}
  {moving : Bool}

/-! ## Restricting -/

/-- What is left of some branches asks what they ask, be it alone or behind a combinator. -/
theorem asksOnly_aloneWith {left : List Object} (hkey : (Combinator.ofKey? key).isSome = true)
    (h : ∀ fields ∈ left, AsksOnly P fields) : AsksOnly P (aloneWith key left) := by
  unfold aloneWith
  split
  next only => exact h only List.mem_cons_self
  next =>
    rw [asksOnly_branches hkey]
    intro fields hfields
    obtain ⟨_, hmem, heq⟩ := List.mem_map.mp hfields
    exact Json.obj.inj heq ▸ h _ hmem

/-- An alternative asks what the query asks, and about its field. -/
theorem asksOnly_alternative (hq : query.Sorted) (hp : pointsTo s field user = .ok constraint)
    (hfield : P field) (h : AsksOnly P query) :
    AsksOnly P (alternative query field constraint) := by
  have hpointer : AsksOnly P [(field, constraint)] :=
    asksOnly_single hfield (by rcases pointsTo_eq_ok hp with rfl | rfl <;> rfl)
  unfold alternative
  split
  · obtain ⟨left, hmem, _, hreduced⟩ := exists_reducedPair hq field constraint
    rw [hreduced]
    -- the branches that are left are among the pointer field and the query itself
    refine asksOnly_aloneWith rfl ?_
    intro fields hf
    rcases List.mem_cons.mp (hmem fields hf) with rfl | hf
    · exact hpointer
    · exact List.mem_singleton.mp hf ▸ h
  · exact h.insert hpointer

/-- Alternatives ask together what each of them asks. -/
theorem asksOnly_anyAlternative {alternatives : List Object} (hne : alternatives ≠ [])
    (hsorted : ∀ query ∈ alternatives, query.Sorted)
    (h : ∀ query ∈ alternatives, AsksOnly P query) : AsksOnly P (anyAlternative alternatives) := by
  obtain ⟨left, _, hmem, _, hany⟩ := exists_anyAlternative hne hsorted
  rw [hany]
  exact asksOnly_aloneWith rfl fun fields hf => h fields (hmem fields hf)

/-- A query restricted to pointer fields asks what the query asks, and about those of the fields
that can point at someone. -/
theorem asksOnly_restrictToPointers (hq : query.Canonical)
    (hfields : ∀ field ∈ pointerFields s op,
      (∃ user constraint, pointsTo s field user = .ok constraint) →
      P field)
    (hp : restrictToPointers s op query groups = .ok (some permitted)) (h : AsksOnly P query) :
    AsksOnly P permitted := by
  rcases restrictToPointers_eq_ok hp with ⟨_, rfl⟩ | ⟨hne, user, alternatives, _, hmade, rfl⟩
  · exact h
  · have hsorted : ∀ made ∈ alternatives, Dict.Sorted made := by
      intro made hm
      exact (hmade.canonical hq hm).sorted
    refine asksOnly_anyAlternative (hmade.ne_nil hne) hsorted ?_
    intro made hm
    obtain ⟨field, hf, constraint, hpoints, rfl⟩ := hmade.exists_field hm
    have hfield := hfields field hf ⟨user, constraint, hpoints⟩
    exact asksOnly_alternative hq.sorted hpoints hfield h

/-- A query with one more branch that has to hold asks what the query and the branch ask. -/
theorem asksOnly_addBranch {branch : Object} (h : AsksOnly P query) (hbranch : AsksOnly P branch) :
    AsksOnly P (addBranch query branch) := by
  refine h.insert ((asksOnly_branches rfl).mpr ?_)
  intro fields hfields
  rcases List.mem_append.mp hfields with hmem | hmem
  -- the branches that the query already has behind `$and`, if they are a list
  · cases hget : query.get? "$and" with
    | none => simp [hget] at hmem
    | some value =>
      cases value with
      | arr branches =>
        rw [hget] at hmem
        exact (asksOnly_branches rfl).mp (h.get? hget) fields hmem
      | _ => simp [hget, Json.arr?] at hmem
  · exact Json.obj.inj (List.mem_singleton.mp hmem) ▸ hbranch

/-- A query restricted on a column asks what the query asks, and about the column. -/
theorem asksOnly_restrict (hcolumn : P column) (hconstraint : constraint.arr? = none)
    (h : AsksOnly P query) : AsksOnly P (restrict query column constraint) := by
  have hstored : AsksOnly P (query.insert column constraint) :=
    h.insert (asksOnly_single hcolumn hconstraint)
  unfold restrict
  split
  next previous hprevious =>
    split
    · exact hstored
    · exact asksOnly_addBranch hstored (h.get? hprevious)
  next => exact hstored

/-! ## Validating -/

/-- Moving a constraint into the branches asks nothing new, be the constraint moved or left. -/
theorem asksOnly_moveIntoBranches (h : AsksOnly P query) (key : String) :
    AsksOnly P (moveIntoBranches query key) := by
  unfold moveIntoBranches
  split
  next value branches hvalue hor =>
    split
    · exact h
    · refine (h.erase key).insert ((asksOnly_branches rfl).mpr ?_)
      intro fields hfields
      obtain ⟨branch, hbranch, heq⟩ := List.mem_map.mp hfields
      cases branch with
      | obj before =>
        obtain rfl := Json.obj.inj heq
        exact ((asksOnly_branches rfl).mp (h.get? hor) before hbranch).insert (h.get? hvalue)
      | _ => cases heq
  next => exact h

/-- Moving all constraints into the branches, one key after another, asks nothing new. -/
theorem asksOnly_restructure (h : AsksOnly P query) : AsksOnly P (restructure query) := by
  unfold restructure
  generalize query.keys.filter (· != "$or") = keys
  induction keys generalizing query with
  | nil => exact h
  | cons key rest ih => exact ih (asksOnly_moveIntoBranches h key)

/-- Checked branches ask about some fields only. -/
def BranchesAskOnly (P : String → Prop) (branches : List Json) : Prop :=
  ∀ fields, .obj fields ∈ branches → AsksOnly P fields

/-- A settled query asks what the query and its checked branches ask. -/
theorem asksOnly_settle {checked : CheckedBranches} (h : AsksOnly P query)
    (hchecked : ∀ key ∈ ["$or", "$and", "$nor"], ∀ branches,
      Dict.get? checked key = some (.ok branches) → BranchesAskOnly P branches)
    (hsettle : settle moving query checked = .ok settled) : AsksOnly P settled := by
  -- each combinator takes its checked branches into the query
  have htake : ∀ key ∈ ["$or", "$and", "$nor"], ∀ before after, AsksOnly P before →
      takeBranches checked before key = .ok after → AsksOnly P after := by
    intro key hkey before after hbefore htakes
    unfold takeBranches at htakes
    split at htakes
    next value result _ hresult =>
      obtain ⟨branches, rfl, htakes⟩ := bind_eq_ok.mp htakes
      obtain rfl := pure_eq_ok.mp htakes
      have hbranches := (asksOnly_branches (isSome_ofKey? hkey)).mpr (hchecked key hkey _ hresult)
      exact hbefore.insert hbranches
    next => exact Except.ok.inj htakes ▸ hbefore
  obtain ⟨_, ors, ands, hors, hands, hnors, _⟩ := settle_eq_ok hsettle
  have hors := htake "$or" (by simp) _ _ h hors
  refine htake "$nor" (by simp) _ _ (htake "$and" (by simp) _ _ ?_ hands) hnors
  split
  · exact asksOnly_restructure hors
  · exact hors

mutual

/-- A checked branch asks what the branch asks. -/
theorem asksOnly_checkBranch {branch : Json} {settled : Object}
    (hbranch : ∀ fields, branch = .obj fields → AsksOnly P fields)
    (h : checkBranch moving branch = .ok (.obj settled)) : AsksOnly P settled := by
  match branch with
  | .obj fields =>
    obtain ⟨after, hsettle, heq⟩ := bind_eq_ok.mp h
    obtain rfl := Json.obj.inj (pure_eq_ok.mp heq)
    have hfields := hbranch fields rfl
    refine asksOnly_settle hfields ?_ hsettle
    intro key hkey branches hchecked
    rw [get?_checkMembers moving fields (isSome_ofKey? hkey)] at hchecked
    obtain ⟨value, hvalue, hchecked⟩ := Option.map_eq_some_iff.mp hchecked
    exact asksOnly_checkMember hkey hfields hvalue hchecked
  | .null | .bool _ | .int _ | .double _ | .str _ | .arr _ => simp [checkBranch] at h

/-- Checked branches ask what the branches ask. -/
theorem asksOnly_checkBranches {branches branches' : List Json}
    (hbranches : BranchesAskOnly P branches)
    (h : checkBranches moving branches = .ok branches') : BranchesAskOnly P branches' := by
  match branches with
  | [] =>
    obtain rfl := Except.ok.inj h
    exact hbranches
  | branch :: rest =>
    obtain ⟨branch', hbranch, h⟩ := bind_eq_ok.mp h
    obtain ⟨rest', hrest, heq⟩ := bind_eq_ok.mp h
    obtain rfl := pure_eq_ok.mp heq
    intro fields hfields
    rcases List.mem_cons.mp hfields with rfl | hfields
    · have hasks : ∀ fields, branch = .obj fields → AsksOnly P fields := by
        rintro fields rfl
        exact hbranches fields List.mem_cons_self
      exact asksOnly_checkBranch hasks hbranch
    · have hothers : BranchesAskOnly P rest := by
        intro fields hf
        exact hbranches fields (List.mem_cons_of_mem _ hf)
      exact asksOnly_checkBranches hothers hrest fields hfields

/-- The checked branches of a combinator ask what is behind it. -/
theorem asksOnly_checkClause {key : String} {value : Json} {branches : List Json}
    (hkey : key ∈ ["$or", "$and", "$nor"]) (hvalue : AsksOnly P [(key, value)])
    (h : checkClause moving key value = .ok branches) : BranchesAskOnly P branches := by
  match value with
  | .arr items =>
    unfold checkClause at h
    split at h
    · cases h
    · exact asksOnly_checkBranches ((asksOnly_branches (isSome_ofKey? hkey)).mp hvalue) h
  | .null | .bool _ | .int _ | .double _ | .str _ | .obj _ => simp [checkClause] at h

/-- The checked branches behind a key of a query ask what the query asks. -/
theorem asksOnly_checkMember {fields : Object} {key : String} {value : Json} {branches : List Json}
    (hkey : key ∈ ["$or", "$and", "$nor"]) (hfields : AsksOnly P fields)
    (hvalue : fields.get? key = some value) (h : checkClause moving key value = .ok branches) :
    BranchesAskOnly P branches := by
  -- the recursion is on the entries, as the branches of one are smaller than the query
  match fields with
  | [] => cases hvalue
  | (k, v) :: rest =>
    have hentries := List.forall_mem_cons.mp (asksOnly_iff.mp hfields)
    by_cases hk : k = key
    · have hv : v = value := by simpa [Dict.get?, hk] using hvalue
      exact asksOnly_checkClause hkey (hk ▸ hentries.1) (hv ▸ h)
    · have hrest : Dict.get? rest key = some value := by simpa [Dict.get?, hk] using hvalue
      exact asksOnly_checkMember hkey (asksOnly_iff.mpr hentries.2) hrest h

end

/-- A valid query asks what the query asks. -/
theorem asksOnly_validate (h : AsksOnly P query) (hvalid : validate moving query = .ok settled) :
    AsksOnly P settled := by
  refine asksOnly_settle h ?_ hvalid
  intro key hkey branches hchecked
  rw [get?_checkMembers moving query (isSome_ofKey? hkey)] at hchecked
  obtain ⟨value, hvalue, hchecked⟩ := Option.map_eq_some_iff.mp hchecked
  exact asksOnly_checkClause hkey (h.get? hvalue) hchecked

end ObjectStore.Access
