import ObjectStore.Access.Validate
import ObjectStore.Proofs.Json.Canonical
import ObjectStore.Proofs.Result

/-!
# Validation without moving changes nothing

Validation puts the checked branches of every combinator back where they were. As long as no
constraint is moved into a branch, a checked branch is the branch itself, by induction on the
document, and storing what is there already changes nothing in a canonical document. So a query that
is found valid comes out as it went in (`validate_eq_self`).
-/

namespace ObjectStore.Access

open Result

variable {moving : Bool} {query settled fields : Object} {key : String} {branches : List Json}
  {checked : CheckedBranches}

/-- The three combinators have these keys. -/
theorem isSome_ofKey? (h : key ∈ ["$or", "$and", "$nor"]) :
    (Combinator.ofKey? key).isSome = true := by
  simp only [List.mem_cons, List.not_mem_nil, or_false] at h
  rcases h with rfl | rfl | rfl <;> rfl

/-- No other key is that of a combinator. -/
theorem mem_of_isSome_ofKey? (h : (Combinator.ofKey? key).isSome = true) :
    key ∈ ["$or", "$and", "$nor"] := by
  unfold Combinator.ofKey? at h
  split at h <;> simp_all

/-- The checked branches of a combinator are those of its entry. -/
theorem get?_checkMembers (moving : Bool) (fields : Object)
    (hkey : (Combinator.ofKey? key).isSome = true) :
    Dict.get? (checkMembers moving fields) key
      = (fields.get? key).map (checkClause moving key) := by
  induction fields with
  | nil => rfl
  | cons entry rest ih =>
    obtain ⟨k, value⟩ := entry
    rw [checkMembers, Dict.get?]
    by_cases hk : k = key
    · subst hk
      rw [if_pos hkey, if_pos rfl, Dict.get?, if_pos rfl, Option.map_some]
    · rw [if_neg hk]
      split
      · rw [Dict.get?, if_neg hk]
        exact ih
      · exact ih

/-- Putting back the branches of a combinator that they were checked as changes nothing. -/
theorem takeBranches_eq_self (hq : query.Sorted)
    (hsame : ∀ value branches, query.get? key = some value →
      Dict.get? checked key = some (.ok branches) → value = .arr branches)
    (h : takeBranches checked query key = .ok settled) : settled = query := by
  unfold takeBranches at h
  split at h
  next value result hvalue hresult =>
    obtain ⟨branches, rfl, heq⟩ := bind_eq_ok.mp h
    obtain rfl := pure_eq_ok.mp heq
    obtain rfl := hsame value branches hvalue hresult
    exact hq.insert_eq_self hvalue
  next => exact (Except.ok.inj h).symm

/-- Settling a query takes the branches of one combinator after the other, and moves constraints
after the first. -/
theorem settle_eq_ok (h : settle moving query checked = .ok settled) :
    query.contains aclField = false ∧ ∃ ors ands, takeBranches checked query "$or" = .ok ors
      ∧ takeBranches checked
          (if moving && ors.contains "$or" then restructure ors else ors) "$and" = .ok ands
      ∧ takeBranches checked ands "$nor" = .ok settled
      ∧ settled.forM validateMember = .ok () := by
  unfold settle at h
  split at h
  next =>
    obtain ⟨_, hthrow, _⟩ := bind_eq_ok.mp h
    exact absurd hthrow throw_ne_ok
  next hacl =>
    simp only [bind_eq_ok, pure_eq_ok] at h
    obtain ⟨ors, hors, ands, hands, nors, hnors, _, hmembers, rfl⟩ := h
    exact ⟨Bool.not_eq_true _ ▸ hacl, ors, ands, hors, hands, hnors, hmembers⟩

/-- A query whose branches were checked as they are is settled as it is. -/
theorem settle_eq_self (hq : query.Sorted)
    (hsame : ∀ key ∈ ["$or", "$and", "$nor"], ∀ value branches, query.get? key = some value →
      Dict.get? checked key = some (.ok branches) → value = .arr branches)
    (h : settle false query checked = .ok settled) : settled = query := by
  obtain ⟨_, ors, ands, hors, hands, hnors, _⟩ := settle_eq_ok h
  obtain rfl := takeBranches_eq_self hq (hsame "$or" (by simp)) hors
  obtain rfl := takeBranches_eq_self hq (hsame "$and" (by simp)) hands
  exact takeBranches_eq_self hq (hsame "$nor" (by simp)) hnors

mutual

/-- A branch is checked as it is. -/
theorem checkBranch_eq_self {branch branch' : Json} (hc : branch.Canonical)
    (h : checkBranch false branch = .ok branch') : branch' = branch := by
  match branch with
  | .obj fields =>
    obtain ⟨settled, hsettle, heq⟩ := bind_eq_ok.mp h
    obtain rfl := pure_eq_ok.mp heq
    have hfields := Object.canonical_iff.mpr hc
    -- the entry is looked up, so the induction goes along the members until it is met
    have hsame : ∀ key ∈ ["$or", "$and", "$nor"], ∀ value branches,
        Dict.get? fields key = some value →
        Dict.get? (checkMembers false fields) key = some (.ok branches) →
        value = .arr branches := by
      intro key hkey value branches hvalue hchecked
      rw [get?_checkMembers false fields (isSome_ofKey? hkey), hvalue, Option.map_some] at hchecked
      exact checkMember_eq_self hfields.inside hvalue (Option.some.inj hchecked)
    rw [settle_eq_self hfields.sorted hsame hsettle]
  | .null | .bool _ | .int _ | .double _ | .str _ | .arr _ => simp [checkBranch] at h

/-- Branches are checked as they are. -/
theorem checkBranches_eq_self {branches branches' : List Json}
    (hc : ∀ branch ∈ branches, branch.Canonical)
    (h : checkBranches false branches = .ok branches') : branches' = branches := by
  match branches with
  | [] => exact (Except.ok.inj h).symm
  | branch :: rest =>
    obtain ⟨branch', hbranch, h⟩ := bind_eq_ok.mp h
    obtain ⟨rest', hrest, heq⟩ := bind_eq_ok.mp h
    obtain rfl := pure_eq_ok.mp heq
    rw [checkBranch_eq_self (hc branch List.mem_cons_self) hbranch,
      checkBranches_eq_self (fun b hb => hc b (List.mem_cons_of_mem _ hb)) hrest]

/-- What stands under a combinator is a list of branches, and checked as it is. -/
theorem checkClause_eq_self {key : String} {value : Json} {branches : List Json}
    (hc : value.Canonical) (h : checkClause false key value = .ok branches) :
    value = .arr branches := by
  match value with
  | .arr items =>
    unfold checkClause at h
    split at h
    · cases h
    · rw [checkBranches_eq_self (Json.canonical_arr.mp hc) h]
  | .null | .bool _ | .int _ | .double _ | .str _ | .obj _ => simp [checkClause] at h

/-- The same of the entry that is found under a key, going along the members until it is met. -/
theorem checkMember_eq_self {fields : Object} {key name : String} {value : Json}
    {branches : List Json} (hc : ∀ entry ∈ fields, entry.2.Canonical)
    (hvalue : fields.get? name = some value)
    (h : checkClause false key value = .ok branches) : value = .arr branches := by
  match fields with
  | [] => cases hvalue
  | (k, v) :: rest =>
    by_cases hk : k = name
    · have hv : v = value := by simpa [Dict.get?, hk] using hvalue
      exact hv ▸ checkClause_eq_self (hc (k, v) List.mem_cons_self) (hv ▸ h)
    · have hrest : Dict.get? rest name = some value := by simpa [Dict.get?, hk] using hvalue
      exact checkMember_eq_self (fun e he => hc e (List.mem_cons_of_mem _ he)) hrest h

end

/-- A canonical query that is found valid comes out as it went in. -/
theorem validate_eq_self (hq : query.Canonical) (h : validate false query = .ok settled) :
    settled = query := by
  refine settle_eq_self hq.sorted ?_ h
  intro key hkey value branches hvalue hchecked
  rw [get?_checkMembers false query (isSome_ofKey? hkey), hvalue, Option.map_some] at hchecked
  exact checkClause_eq_self (hq.get? hvalue) (Option.some.inj hchecked)

end ObjectStore.Access
