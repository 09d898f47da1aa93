import ObjectStore.Proofs.Access.Moving
import ObjectStore.Proofs.Access.Validity

/-!
# What validation accepts where constraints move

Validation checks the branches of `$or` first, then moves the constraints beside it into them, and
then checks what is left. So a constraint that moves is checked nowhere: `accepts_moving_iff` says
that a query is accepted if each of its entries either moves or is found valid.

Moving therefore never makes validation stricter. It makes it laxer for the queries in which a
constraint moves, on some level, that validation refuses (`Escapes`), and for no others
(`accepts_same_unless_escapes`).
-/

namespace ObjectStore.Access

open Result Query

variable {query settled : Object} {key : String} {value : Json} {branches : List Object}
  {checked : CheckedBranches} {entry : String × Json}

/-! ## What moving leaves of a query -/

theorem sorted_moveIntoBranches (hq : query.Sorted) (key : String) :
    Dict.Sorted (moveIntoBranches query key) := by
  unfold moveIntoBranches
  split
  · split
    · exact hq
    · exact (hq.erase key).insert _ _
  · exact hq

theorem sorted_restructure (hq : query.Sorted) : Dict.Sorted (restructure query) := by
  unfold restructure
  generalize query.keys.filter (· != "$or") = keys
  induction keys generalizing query with
  | nil => exact hq
  | cons key rest ih => exact ih (sorted_moveIntoBranches hq key)

theorem sorted_takeBranches (hq : query.Sorted)
    (h : takeBranches checked query key = .ok settled) : settled.Sorted := by
  unfold takeBranches at h
  split at h
  · obtain ⟨_, _, h⟩ := bind_eq_ok.mp h
    exact pure_eq_ok.mp h ▸ hq.insert _ _
  · exact Except.ok.inj h ▸ hq

/-- A constraint that moves: it does not look near to a place, and no branch has one of its own. -/
def Moves (branches : List Object) (key : String) (value : Json) : Prop :=
  looksNear value = false ∧ ∀ branch ∈ branches, branch.get? key = none

/-- Whether a constraint moves is decided by what the branches have under its key at the start: a
move of another constraint changes nothing of that. -/
theorem get?_foldl_moveIntoBranches {keys : List String} (hnodup : keys.Nodup)
    (hkeys : "$or" ∉ keys)
    (hor : query.get? "$or" = some (.arr (branches.map .obj))) (hkey : key ≠ "$or") :
    Dict.get? (keys.foldl moveIntoBranches query) key = some value ↔
      query.get? key = some value ∧ (key ∈ keys → ¬ Moves branches key value) := by
  induction keys generalizing query branches with
  | nil => simp
  | cons k rest ih =>
    obtain ⟨hk, hnodup⟩ := List.nodup_cons.mp hnodup
    rw [List.mem_cons, not_or] at hkeys
    rw [List.foldl_cons]
    rcases moveIntoBranches_cases branches hor k with
      ⟨heq, hstays⟩ | ⟨moved, hmoved, hnear, hfree, heq⟩ <;> rw [heq]
    · rw [ih hnodup hkeys.2 hor, List.mem_cons]
      by_cases hkk : key = k
      · subst hkk
        refine and_congr_right fun hvalue => iff_of_true (fun h => absurd h hk) ?_
        intro _ hmoves
        rcases hstays value hvalue with hlooks | ⟨branch, hb, hne⟩
        · exact absurd hlooks (by simp [hmoves.1])
        · exact hne (hmoves.2 branch hb)
      · simp [hkk]
    · -- the branches have one more constraint, under a key that is dealt with
      have hor' : Dict.get? ((query.erase k).insert "$or"
          (.arr ((branches.map (Dict.insert · k moved)).map .obj))) "$or"
            = some (.arr ((branches.map (Dict.insert · k moved)).map .obj)) :=
        Dict.get?_insert_self ..
      rw [ih hnodup hkeys.2 hor', Dict.get?_insert_of_ne _ _ hkey, List.mem_cons]
      by_cases hkk : key = k
      · subst hkk
        rw [Dict.get?_erase_self, hmoved]
        refine iff_of_false (fun h => nomatch h.1) ?_
        rintro ⟨hvalue, hstays⟩
        exact hstays (Or.inl rfl) ⟨Option.some.inj hvalue ▸ hnear, hfree⟩
      · have hmoves : Moves (branches.map (Dict.insert · k moved)) key value
            ↔ Moves branches key value := by
          refine and_congr_right fun _ => ?_
          rw [List.forall_mem_map]
          exact forall₂_congr fun branch _ => by rw [Dict.get?_insert_of_ne _ _ hkk]
        rw [Dict.get?_erase_of_ne hkk, hmoves]
        simp [hkk]

/-- What is left beside the `$or` is what does not move. -/
theorem get?_restructure (hq : query.Sorted)
    (hor : query.get? "$or" = some (.arr (branches.map .obj))) (hkey : key ≠ "$or") :
    Dict.get? (restructure query) key = some value ↔
      query.get? key = some value ∧ ¬ Moves branches key value := by
  have hnodup : (query.keys.filter (· != "$or")).Nodup := hq.nodup_keys.filter _
  rw [restructure, get?_foldl_moveIntoBranches hnodup (by simp) hor hkey]
  refine and_congr_right ?_
  intro hvalue
  have hmem : key ∈ query.keys.filter (· != "$or") :=
    List.mem_filter.mpr ⟨List.mem_map_of_mem (Dict.mem_of_get? hvalue), by simpa using hkey⟩
  simp [hmem]

/-- The `$or` of what is left is a list of objects. -/
theorem get?_or_restructure (hor : query.get? "$or" = some (.arr (branches.map .obj))) :
    ∃ branches' : List Object,
      Dict.get? (restructure query) "$or" = some (.arr (branches'.map .obj)) := by
  unfold restructure
  generalize query.keys.filter (· != "$or") = keys
  induction keys generalizing query branches with
  | nil => exact ⟨branches, hor⟩
  | cons key rest ih =>
    rw [List.foldl_cons]
    rcases moveIntoBranches_cases branches hor key with
      ⟨heq, _⟩ | ⟨value, _, _, _, heq⟩ <;> rw [heq]
    · exact ih hor
    · exact ih (Dict.get?_insert_self ..)

/-- A constraint of a query that moves into the branches of its `$or`, once they are checked. -/
def MovesAway (query : Object) (entry : String × Json) : Prop :=
  entry.1 ≠ "$or" ∧ ∃ items branches, query.get? "$or" = some (.arr items)
    ∧ checkBranches true items = .ok (branches.map .obj) ∧ Moves branches entry.1 entry.2

/-- The query that is left once its `$or` is checked and constraints have moved: beside the `$or`,
it has the constraints that do not move. -/
theorem exists_left (hq : query.Sorted)
    (h : takeBranches (checkMembers true query) query "$or" = .ok settled) :
    ∃ left : Object, (if true && settled.contains "$or" then restructure settled else settled)
      = left
      ∧ left.Sorted ∧ (∀ value, left.get? "$or" = some value → ∃ items, value = .arr items)
      ∧ ∀ key ≠ "$or", ∀ value,
        left.get? key = some value
          ↔ query.get? key = some value ∧ ¬ MovesAway query (key, value) := by
  refine ⟨_, rfl, ?_⟩
  rcases takeBranches_or_cases h with ⟨hnone, rfl⟩ | ⟨items, branches, hor, hchecked, rfl, _⟩
  · rw [if_neg (by simp [Dict.contains, hnone])]
    refine ⟨hq, ?_, ?_⟩
    · intro value hvalue
      cases hnone.symm.trans hvalue
    · intro key _ value
      refine (and_iff_left ?_).symm
      rintro ⟨_, items, _, hor, _⟩
      cases hnone.symm.trans hor
  · have hor' := Dict.get?_insert_self query "$or" (.arr (branches.map .obj))
    rw [if_pos (by simp [Dict.contains, hor'])]
    refine ⟨sorted_restructure (hq.insert _ _), ?_, ?_⟩
    · intro value hvalue
      obtain ⟨branches', hleft⟩ := get?_or_restructure hor'
      exact ⟨_, Option.some.inj (hvalue.symm.trans hleft)⟩
    · intro key hkey value
      rw [get?_restructure (hq.insert _ _) hor' hkey, Dict.get?_insert_of_ne _ _ hkey]
      refine and_congr_right fun _ => not_congr ?_
      constructor
      · intro hmoves
        exact ⟨hkey, items, branches, hor, hchecked, hmoves⟩
      · rintro ⟨_, items', branches', hor', hchecked', hmoves⟩
        obtain rfl := Json.arr.inj (Option.some.inj (hor.symm.trans hor'))
        -- objects are told apart by their fields, so the checked branches are the same
        have hsame : branches = branches' := List.map_injective_iff.mpr (fun _ _ => Json.obj.inj)
          (Except.ok.inj (hchecked.symm.trans hchecked'))
        exact hsame ▸ hmoves

/-! ## What is accepted -/

/-- The branches of a combinator are taken where they are found valid. -/
theorem takeBranches_isOk_iff {other : Object} (hkey : (Combinator.ofKey? key).isSome = true)
    (hother : ∀ value, other.get? key = some value → query.get? key = some value) :
    (∃ settled, takeBranches (checkMembers true query) other key = .ok settled) ↔
      ∀ value, other.get? key = some value → ∃ items, checkClause true key value = .ok items := by
  unfold takeBranches
  cases hget : other.get? key with
  | none => simp
  | some value =>
    rw [get?_checkMembers true query hkey, hother value hget]
    simp only [Option.map_some, Option.some.injEq, forall_eq', bind_eq_ok, pure_eq_ok]
    exact ⟨fun ⟨_, items, hitems, _⟩ => ⟨items, hitems⟩,
      fun ⟨items, hitems⟩ => ⟨_, items, hitems, rfl⟩⟩

/-- What is taken for a combinator is a list of branches. -/
theorem eq_arr_of_takeBranches {other : Object} (hkey : (Combinator.ofKey? key).isSome = true)
    (hother : ∀ value, other.get? key = some value → query.get? key = some value)
    (h : takeBranches (checkMembers true query) other key = .ok settled)
    (hvalue : settled.get? key = some value) : ∃ items, value = .arr items := by
  unfold takeBranches at h
  cases hget : other.get? key with
  | none =>
    rw [hget] at h
    obtain rfl := Except.ok.inj h
    cases hget.symm.trans hvalue
  | some value' =>
    rw [hget, get?_checkMembers true query hkey, hother value' hget] at h
    obtain ⟨items, _, h⟩ := bind_eq_ok.mp h
    obtain rfl := pure_eq_ok.mp h
    exact ⟨items, Option.some.inj ((Dict.get?_insert_self ..).symm.trans hvalue).symm⟩

/-- A query is settled where each step succeeds. -/
theorem settle_of_steps {moving : Bool} {ors ands : Object} (hacl : query.contains aclField = false)
    (hors : takeBranches checked query "$or" = .ok ors)
    (hands : takeBranches checked
      (if moving && ors.contains "$or" then restructure ors else ors) "$and" = .ok ands)
    (hnors : takeBranches checked ands "$nor" = .ok settled)
    (hmembers : settled.forM validateMember = .ok ()) :
    settle moving query checked = .ok settled := by
  unfold settle
  rw [if_neg (by simp [hacl])]
  exact bind_eq_ok.mpr ⟨ors, hors, bind_eq_ok.mpr ⟨ands, hands, bind_eq_ok.mpr ⟨settled, hnors,
    bind_eq_ok.mpr ⟨⟨⟩, hmembers, rfl⟩⟩⟩⟩

/-- What a list of branches stands for has no options of a pattern to check. -/
theorem validateMember_combinator (hkey : (Combinator.ofKey? key).isSome = true)
    (items : List Json) :
    validateMember (key, .arr items) = .ok () := by
  refine validateMember_special ?_ rfl
  unfold Combinator.ofKey? at hkey
  split at hkey <;> simp_all [specialKeys]

/-- An entry of a query that passes the checks where constraints move. -/
structure PassesMoving (entry : String × Json) : Prop where
  member : validateMember entry = .ok ()
  branches : (Combinator.ofKey? entry.1).isSome = true →
    ∃ items, checkClause true entry.1 entry.2 = .ok items

theorem passesMoving_of_takeBranches {other : Object} (hkey : (Combinator.ofKey? key).isSome = true)
    (hother : ∀ value, other.get? key = some value → query.get? key = some value)
    (h : takeBranches (checkMembers true query) other key = .ok settled)
    (hvalue : other.get? key = some value) : PassesMoving (key, value) := by
  have hok := (takeBranches_isOk_iff hkey hother).mp ⟨settled, h⟩ value hvalue
  obtain ⟨items, rfl, _⟩ := checkClause_isOk_iff.mp hok
  exact ⟨validateMember_combinator hkey items, fun _ => hok⟩

/-- What does not move is still there when its turn to be checked comes. -/
theorem passesMoving_of_accepts (hq : query.Sorted) (h : Accepts true query)
    (hentry : entry ∈ query)
    (hmoves : ¬ MovesAway query entry) : PassesMoving entry := by
  obtain ⟨settled, h⟩ := h
  obtain ⟨_, ors, ands, hors, hands, hnors, hmembers⟩ := settle_eq_ok h
  obtain ⟨left, hleft, _, _, hstays⟩ := exists_left hq hors
  rw [hleft] at hands
  obtain ⟨key, value⟩ := entry
  have hvalue := hq.get?_eq_some_iff.mpr hentry
  by_cases hor : key = "$or"
  · subst hor
    exact passesMoving_of_takeBranches rfl (fun _ h => h) hors hvalue
  have hhere : left.get? key = some value := (hstays key hor value).mpr ⟨hvalue, hmoves⟩
  by_cases hand : key = "$and"
  · subst hand
    exact passesMoving_of_takeBranches rfl (fun _ h => ((hstays _ hor _).mp h).1) hands hhere
  have hhere : ands.get? key = some value := (get?_takeBranches_of_ne hands hand).trans hhere
  by_cases hnor : key = "$nor"
  · subst hnor
    refine passesMoving_of_takeBranches rfl ?_ hnors hhere
    intro value h
    exact ((hstays _ hor _).mp ((get?_takeBranches_of_ne hands hand).symm.trans h)).1
  · have hhere : settled.get? key = some value := (get?_takeBranches_of_ne hnors hnor).trans hhere
    refine ⟨eq_ok_of_forM hmembers (Dict.mem_of_get? hhere), ?_⟩
    intro hkey
    unfold Combinator.ofKey? at hkey
    split at hkey <;> simp_all

/-- A query passes if all that does not move does. -/
theorem accepts_of_passesMoving (hq : query.Sorted) (hacl : query.contains aclField = false)
    (h : ∀ entry ∈ query, MovesAway query entry ∨ PassesMoving entry) : Accepts true query := by
  have hpasses : ∀ key value, query.get? key = some value → ¬ MovesAway query (key, value) →
      PassesMoving (key, value) := fun key value hvalue hmoves =>
    (h _ (Dict.mem_of_get? hvalue)).resolve_left hmoves
  obtain ⟨ors, hors⟩ := (takeBranches_isOk_iff rfl fun _ h => h).mpr fun value hvalue =>
    (hpasses "$or" value hvalue fun hmoves => hmoves.1 rfl).branches rfl
  obtain ⟨left, hleft, hsorted, harr, hstays⟩ := exists_left hq hors
  have hthere : ∀ key ≠ "$or", ∀ value, left.get? key = some value → PassesMoving (key, value) :=
    fun key hkey value hvalue =>
      hpasses key value ((hstays key hkey value).mp hvalue).1 ((hstays key hkey value).mp hvalue).2
  have hand : ∀ value, left.get? "$and" = some value → query.get? "$and" = some value :=
    fun value h => ((hstays _ (by decide) value).mp h).1
  obtain ⟨ands, hands⟩ := (takeBranches_isOk_iff rfl hand).mpr fun value hvalue =>
    (hthere "$and" (by decide) value hvalue).branches rfl
  have hnorLeft : ands.get? "$nor" = left.get? "$nor" := get?_takeBranches_of_ne hands (by decide)
  have hnor : ∀ value, ands.get? "$nor" = some value → query.get? "$nor" = some value :=
    fun value h => ((hstays _ (by decide) value).mp (hnorLeft.symm.trans h)).1
  obtain ⟨settled, hnors⟩ := (takeBranches_isOk_iff rfl hnor).mpr fun value hvalue =>
    (hthere "$nor" (by decide) value (hnorLeft.symm.trans hvalue)).branches rfl
  refine ⟨settled, settle_of_steps hacl hors (hleft ▸ hands) hnors (forM_eq_ok ?_)⟩
  -- what is left in the end are lists of branches and the constraints that do not move
  rintro ⟨key, value⟩ hentry
  have hvalue := (sorted_takeBranches (sorted_takeBranches hsorted hands)
    hnors).get?_eq_some_iff.mpr
    hentry
  by_cases hkeyNor : key = "$nor"
  · subst hkeyNor
    obtain ⟨items, rfl⟩ := eq_arr_of_takeBranches rfl hnor hnors hvalue
    exact validateMember_combinator rfl items
  rw [get?_takeBranches_of_ne hnors hkeyNor] at hvalue
  by_cases hkeyAnd : key = "$and"
  · subst hkeyAnd
    obtain ⟨items, rfl⟩ := eq_arr_of_takeBranches rfl hand hands hvalue
    exact validateMember_combinator rfl items
  rw [get?_takeBranches_of_ne hands hkeyAnd] at hvalue
  by_cases hkeyOr : key = "$or"
  · subst hkeyOr
    obtain ⟨items, rfl⟩ := harr value hvalue
    exact validateMember_combinator rfl items
  · exact (hthere key hkeyOr value hvalue).member

/-- Where constraints move, a query is accepted if it does not ask for the `ACL` and each of its
entries moves or passes the checks. -/
theorem accepts_moving_iff (hq : query.Sorted) : Accepts true query ↔
    query.contains aclField = false
      ∧ ∀ entry ∈ query, MovesAway query entry ∨ PassesMoving entry := by
  refine ⟨fun h => ⟨?_, ?_⟩, fun ⟨hacl, h⟩ => accepts_of_passesMoving hq hacl h⟩
  · obtain ⟨settled, h⟩ := h
    exact (settle_eq_ok h).1
  · intro entry hentry
    exact or_iff_not_imp_left.mpr (passesMoving_of_accepts hq h hentry)

/-! ## Moving and acceptance -/

/-- On some level of a query, a constraint moves into branches that validation refuses where it
stands. -/
def Escapes (query : Object) : Prop :=
  ∃ level, IsLevelOf level query ∧ ∃ entry ∈ level, MovesAway level entry ∧ ¬ IsValidEntry entry

/-- An entry that passes is valid, if the branches in it that are accepted are valid. -/
theorem isValidEntry_of_passesMoving (hacl : entry.1 ≠ aclField) (hentry : entry ∈ query)
    (h : PassesMoving entry)
    (hbranches : ∀ fields, IsBranchOf fields query → Accepts true fields → Accepts false fields) :
    IsValidEntry entry := by
  refine ⟨hacl, h.member, ?_⟩
  intro hkey
  obtain ⟨items, hitems, hempty, hall⟩ := checkClause_isOk_iff.mp (h.branches hkey)
  refine checkClause_isOk_iff.mpr ⟨items, hitems, hempty, ?_⟩
  intro branch hb
  obtain ⟨fields, rfl, haccepts⟩ := hall branch hb
  have hbranch : IsBranchOf fields query := ⟨entry.1, items, hkey, hitems ▸ hentry, hb⟩
  exact ⟨fields, rfl, hbranches fields hbranch haccepts⟩

/-- A valid entry passes, if the valid branches in it are accepted. -/
theorem passesMoving_of_isValidEntry (hentry : entry ∈ query) (h : IsValidEntry entry)
    (hbranches : ∀ fields, IsBranchOf fields query → Accepts false fields → Accepts true fields) :
    PassesMoving entry := by
  refine ⟨h.member, ?_⟩
  intro hkey
  obtain ⟨items, hitems, hempty, hall⟩ := checkClause_isOk_iff.mp (h.branches hkey)
  refine checkClause_isOk_iff.mpr ⟨items, hitems, hempty, ?_⟩
  intro branch hb
  obtain ⟨fields, rfl, hvalid⟩ := hall branch hb
  have hbranch : IsBranchOf fields query := ⟨entry.1, items, hkey, hitems ▸ hentry, hb⟩
  exact ⟨fields, rfl, hbranches fields hbranch hvalid⟩

/-- The branches of a valid query are valid. -/
theorem accepts_of_isBranchOf {fields : Object} (hq : query.Canonical) (h : Accepts false query)
    (hbranch : IsBranchOf fields query) : Accepts false fields := by
  obtain ⟨key, items, hkey, hentry, hb⟩ := hbranch
  obtain ⟨_, heq, _, hall⟩ :=
    checkClause_isOk_iff.mp (((isValid_iff hq).mp h _ hentry).branches hkey)
  obtain rfl := Json.arr.inj heq
  obtain ⟨_, heq, hvalid⟩ := hall _ hb
  exact Json.obj.inj heq ▸ hvalid

/-- All levels of a valid query are valid. -/
theorem accepts_of_isLevelOf {level : Object} (hlevel : IsLevelOf level query)
    (hq : query.Canonical) (h : Accepts false query) : level.Canonical ∧ Accepts false level := by
  induction hlevel with
  | self => exact ⟨hq, h⟩
  | inside hbranch _ ih => exact ih (hbranch.canonical hq) (accepts_of_isBranchOf hq h hbranch)

/-- A query is accepted where constraints move if it is accepted where they stay. -/
theorem accepts_moving_of_accepts (hq : query.Canonical) (h : Accepts false query) :
    Accepts true query := by
  induction query using Query.induction with
  | h query ih =>
    have hvalid := (isValid_iff hq).mp h
    have hacl : query.contains aclField = false := ((isValid_iff_settles hq).mp h).1
    refine accepts_of_passesMoving hq.sorted hacl fun entry hentry => Or.inr ?_
    exact passesMoving_of_isValidEntry hentry (hvalid entry hentry) fun fields hbranch hfields =>
      ih fields hbranch (hbranch.canonical hq) hfields

/-- A query that is accepted where constraints move is valid if none that moves is refused. -/
theorem accepts_of_not_escapes (hq : query.Canonical) (h : Accepts true query)
    (hescapes : ¬ Escapes query) : Accepts false query := by
  induction query using Query.induction with
  | h query ih =>
    obtain ⟨hacl, hentries⟩ := (accepts_moving_iff hq.sorted).mp h
    refine (isValid_iff hq).mpr ?_
    intro entry hentry
    rcases hentries entry hentry with hmoves | hpasses
    · exact Classical.byContradiction fun hrefused =>
        hescapes ⟨query, .self query, entry, hentry, hmoves, hrefused⟩
    have hkey : entry.1 ≠ aclField := by
      intro hkey
      have hget := hq.sorted.get?_eq_some_iff.mpr hentry
      rw [hkey] at hget
      simp [Dict.contains, hget] at hacl
    refine isValidEntry_of_passesMoving hkey hentry hpasses ?_
    intro fields hbranch haccepts
    refine ih fields hbranch (hbranch.canonical hq) haccepts ?_
    rintro ⟨level, hlevel, hmember⟩
    exact hescapes ⟨level, .inside hbranch hlevel, hmember⟩

/-- Validation accepts at least as much where constraints move, and it accepts the same queries
except for those in which, on some level, a constraint moves that it refuses. -/
theorem accepts_same_unless_escapes (hq : query.Canonical) :
    (Accepts false query → Accepts true query) ∧
      (Accepts true query → (Accepts false query ↔ ¬ Escapes query)) := by
  refine ⟨accepts_moving_of_accepts hq, fun h => ⟨?_, ?_⟩⟩
  · intro hvalid hescapes
    obtain ⟨level, hlevel, entry, hentry, _, hrefused⟩ := hescapes
    obtain ⟨hcanonical, hlevelValid⟩ := accepts_of_isLevelOf hlevel hq hvalid
    exact hrefused ((isValid_iff hcanonical).mp hlevelValid entry hentry)
  · exact accepts_of_not_escapes hq h

/-- News and notes of one title, of which the notes are to have an author or a source. -/
def titledPosts : Object :=
  [("$or", .arr [.obj [("kind", .str "news")],
      .obj [("$or", .arr [.obj [("author", .str "a")], .obj [("source", .str "s")]]),
        ("kind", .str "note")]]),
    ("title", .str "x")]

/-- All of it moves, on both levels, and is valid wherever it stands. -/
theorem titledPosts_accepted_same : titledPosts.Canonical ∧ Accepts true titledPosts
    ∧ (Accepts false titledPosts ↔ ¬ Escapes titledPosts) ∧ Accepts false titledPosts := by
  have hq : titledPosts.Canonical := Object.canonical_of_isCanonical (by decide)
  have hvalid : Accepts false titledPosts := ⟨_, rfl⟩
  have hmoved := (accepts_same_unless_escapes hq).1 hvalid
  exact ⟨hq, hmoved, (accepts_same_unless_escapes hq).2 hmoved, hvalid⟩

/-- A query on `ACL` is refused, but not in an `$and` that moves. -/
theorem acl_query_escapes :
    Accepts true [("$and", .arr [.obj [(aclField, .int 1)]]),
        ("$or", .arr [.obj [("kind", .str "news")]])]
      ∧ ¬ Accepts false [("$and", .arr [.obj [(aclField, .int 1)]]),
        ("$or", .arr [.obj [("kind", .str "news")]])] := by
  refine ⟨⟨_, rfl⟩, ?_⟩
  rintro ⟨_, h⟩
  cases h

end ObjectStore.Access
