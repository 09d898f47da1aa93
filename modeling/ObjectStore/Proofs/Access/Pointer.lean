import ObjectStore.Access.Pointer
import ObjectStore.Proofs.Access.Reduce
import ObjectStore.Proofs.Access.Restriction
import ObjectStore.Proofs.Query.Entrywise

/-!
# What permissions by pointer let through

A pointer field that grants an operation does so on the rows where one clause is true, the one that
its constraint compiles to: `PointsAt` names it. Restricting a query to such fields never widens it
(`admits_of_restrictToPointers`), and where only pointer fields grant the operation, all rows that
it admits point at the user in one of them (`pointsAt_of_restrictToPointers`). The latter holds even
if an `$and` that is no list gets lost later.

The argument goes alternative by alternative. An alternative asks for the whole query
(`admits_alternative`) and for its pointer (`admitsEntry_of_alternative`), and dropping redundant
alternatives leaves one of them at least (`exists_admitsBesideAnd_of_anyAlternative`).
-/

namespace ObjectStore.Access

open Result

variable {c : Compiler} {v : Valuation} {s : Schema} {op : Operation} {groups fields : List String}
  {field user : String} {constraint : Json} {query permitted : Object}

/-! ## The clause of a pointer -/

/-- The clause by which a field points at a user is true. -/
def PointsAt (c : Compiler) (v : Valuation) (s : Schema) (field user : String) : Prop :=
  ∃ constraint clause, pointsTo s field user = .ok constraint
    ∧ c.compileEntry (field, constraint) = .ok (.ofClause clause) ∧ v clause = some true

/-- The pointer to a user. -/
def userPointer (user : String) : Json :=
  .obj [(typeKey, .str "Pointer"), ("className", .str userClass), ("objectId", .str user)]

theorem toJson_user (user : String) : (Pointer.mk userClass user).toJson = userPointer user := by
  have hsorted : Dict.Sorted [(typeKey, Json.str "Pointer"), ("className", .str userClass),
      ("objectId", .str user)] := by
    change [typeKey, "className", "objectId"].Pairwise (· < ·)
    decide
  exact congrArg Json.obj hsorted.nil_merge

/-- A field points to a user by the pointer itself, or by a list that holds it. -/
theorem pointsTo_eq_ok (h : pointsTo s field user = .ok constraint) :
    constraint = userPointer user ∨ constraint = .obj [("$all", .arr [userPointer user])] := by
  unfold pointsTo at h
  rw [toJson_user] at h
  split at h
  · exact Or.inl (Except.ok.inj h).symm
  · exact Or.inl (Except.ok.inj h).symm
  · exact Or.inr (Except.ok.inj h).symm
  · exact Or.inr (Except.ok.inj h).symm
  · cases h

theorem isExact_pointsTo (h : pointsTo s field user = .ok constraint) :
    constraint.isExact = true := by
  rcases pointsTo_eq_ok h with rfl | rfl <;> rfl

theorem canonical_pointsTo (h : pointsTo s field user = .ok constraint) :
    constraint.Canonical := by
  have hpointer : (userPointer user).Canonical := by
    rw [← toJson_user]
    exact Json.canonical_ofEntries (by simp [Json.Canonical.str])
  rcases pointsTo_eq_ok h with rfl | rfl
  · exact hpointer
  · refine .obj (Dict.sorted_singleton _) ?_
    intro entry he
    obtain rfl := List.mem_singleton.mp he
    exact .arr fun item hi => List.mem_singleton.mp hi ▸ hpointer

theorem exists_clause_containsAny (f : FieldRef) (values : List Json) :
    ∃ clause, f.containsAny values = .clause clause := by
  unfold FieldRef.containsAny
  split <;> exact ⟨_, rfl⟩

theorem exists_clause_containsAll (f : FieldRef) (values : List Json) :
    ∃ clause, f.containsAll values = .clause clause := by
  unfold FieldRef.containsAll
  split <;> exact ⟨_, rfl⟩

theorem exists_clause_compareValue (f : FieldRef) (sign : String) (value : Json) :
    ∃ clause, f.compareValue sign value = .clause clause := by
  unfold FieldRef.compareValue
  split
  · split <;> exact ⟨_, rfl⟩
  · exact ⟨_, rfl⟩

/-- The constraint that a field point to a user is one operator, which compiles to one clause. -/
theorem compileOperator_pointsTo (f : FieldRef) (now : Timestamp)
    (h : pointsTo s field user = .ok constraint) :
    ∃ operator clause, Constraint.ofJson constraint = .ok (.operators [operator])
      ∧ f.compileOperator now operator = .ok (.ofClause clause) := by
  rcases pointsTo_eq_ok h with rfl | rfl
  · have hclause : ∃ clause, f.equalsTagged (.pointer ⟨userClass, user⟩ (userPointer user))
        = .ok (.clause clause) := by
      rw [FieldRef.equalsTagged]
      split
      · obtain ⟨clause, hc⟩ := exists_clause_containsAny f [userPointer user]
        exact ⟨clause, by rw [hc]⟩
      · exact ⟨_, rfl⟩
    obtain ⟨clause, hc⟩ := hclause
    exact ⟨.tagged (.pointer ⟨userClass, user⟩ (userPointer user)), clause, rfl,
      by rw [FieldRef.compileOperator, hc]; rfl⟩
  · refine ⟨.containsAll [userPointer user], ?_⟩
    rw [FieldRef.compileOperator, FieldRef.holdsAll]
    split
    · obtain ⟨clause, hc⟩ := exists_clause_compareValue f "=" (userPointer user)
      exact ⟨clause, rfl, by rw [hc]; rfl⟩
    · -- a pointer is no pattern, so the list is looked for as it is
      have hpatterns : [userPointer user].filterMap FieldRef.anchored? = [] := rfl
      obtain ⟨clause, hc⟩ := exists_clause_containsAll f [userPointer user]
      exact ⟨clause, rfl, by rw [hpatterns, hc]; rfl⟩

/-- The constraint of a pointer field compiles to one clause, unless the field is named like a
combinator. -/
theorem compileEntry_pointsTo (c : Compiler) (hkey : Combinator.ofKey? field = none)
    (h : pointsTo s field user = .ok constraint) :
    ∃ clause, c.compileEntry (field, constraint) = .ok (.ofClause clause) := by
  obtain ⟨operator, clause, hread, hcompile⟩ := compileOperator_pointsTo (c.fieldRef field) c.now h
  have hexists : constraint.get? "$exists" = none := by
    rcases pointsTo_eq_ok h with rfl | rfl <;> rfl
  refine ⟨clause, ?_⟩
  rw [Compiler.compileEntry, hkey]
  exact Compiler.compileField_operator (Compiler.asksNothing_eq_false hexists) hread hcompile

/-- Where the constraint of a pointer field is admitted, the field points at the user. -/
theorem pointsAt_of_admits (h : pointsTo s field user = .ok constraint)
    (ha : c.AdmitsEntry v (field, constraint)) : PointsAt c v s field user := by
  obtain ⟨out, hout, hh⟩ := ha
  -- a combinator would need a list, and the constraint of a pointer is an object
  have hkey : Combinator.ofKey? field = none := by
    cases hk : Combinator.ofKey? field with
    | none => rfl
    | some combinator =>
      simp only [Compiler.compileEntry, hk] at hout
      obtain ⟨_, _, rfl, _⟩ := Compiler.compileClause_eq_ok.mp hout
      rcases pointsTo_eq_ok h with h | h <;> cases h
  obtain ⟨clause, hentry⟩ := compileEntry_pointsTo c hkey h
  obtain rfl := Except.ok.inj (hentry.symm.trans hout)
  exact ⟨constraint, clause, h, hentry, by simpa using hh (.clause clause) List.mem_cons_self⟩

/-- A field points at the user where the constraint of a pointer field is admitted, and only
there. -/
theorem pointsAt_iff (h : pointsTo s field user = .ok constraint) :
    PointsAt c v s field user ↔ c.AdmitsEntry v (field, constraint) := by
  refine ⟨?_, pointsAt_of_admits h⟩
  rintro ⟨constraint', clause, h', hentry, htrue⟩
  obtain rfl := Except.ok.inj (h.symm.trans h')
  refine ⟨_, hentry, ?_⟩
  intro p hp
  obtain rfl := List.mem_singleton.mp hp
  rwa [Predicate.truth_clause]

/-! ## One alternative -/

/-- What a branch asks, a branch that it is a part of asks too, if one of the two values holds no
doubles. -/
theorem mem_of_isPartOf {narrow wide : Object} (hpart : isPartOf (.obj narrow) (.obj wide) = true)
    {entry : String × Json} (he : entry ∈ narrow)
    (hexact : entry.2.isExact = true ∨ (Json.obj wide).isExact = true) : entry ∈ wide := by
  have hbeq := isPartOf_iff.mp hpart entry he
  cases hget : Dict.get? wide entry.1 with
  | none =>
    rw [hget] at hbeq
    cases hbeq
  | some value =>
    rw [hget, Option.some_beq_some] at hbeq
    have hmem := Dict.mem_of_get? hget
    have hvalue : value = entry.2 :=
      Json.eq_of_beq (hexact.symm.imp_left fun hw => Json.isExact_obj.mp hw _ hmem) hbeq
    rw [hvalue] at hmem
    exact hmem

/-- What is left of an `$and` admits what its branches admit. -/
theorem admits_aloneWith_and {left : List Object} (h : c.Admits v (aloneWith "$and" left)) :
    ∀ fields ∈ left, c.Admits v fields := by
  match left with
  | [] => exact fun _ hf => (List.not_mem_nil hf).elim
  | [only] => exact fun fields hf => List.mem_singleton.mp hf ▸ h
  | first :: second :: rest =>
    have hentry := Compiler.admits_iff.mp h _ List.mem_cons_self
    intro fields hf
    obtain ⟨_, heq, ha⟩ := Compiler.admitsEntry_and.mp hentry _ (List.mem_map_of_mem hf)
    exact Json.obj.inj heq ▸ ha

/-- A combinator that stands alone takes one more branch if its branches do. -/
theorem takesBranch_aloneWith {key : String} {left : List Object}
    (h : ∀ fields ∈ left, TakesBranch fields) : TakesBranch (aloneWith key left) := by
  match left with
  | [only] => exact h only List.mem_cons_self
  -- otherwise the combinator stays, and it has a list
  | [] | _ :: _ :: _ =>
    intro value hvalue
    unfold aloneWith Dict.get? at hvalue
    split at hvalue
    · exact ⟨_, (Option.some.inj hvalue).symm⟩
    · cases hvalue

/-- Some entries that pass from a branch to its parts are in all branches of a pair if they are in
those that reducing the pair leaves; the first branch holds no doubles. -/
theorem forall_of_reducedPair {P : String × Json → Prop} {pointer query : Object}
    {left : List Object} (hexact : (Json.obj pointer).isExact = true)
    (hleft : dropRedundant false 2 ([pointer, query].map .obj) = left.map Json.obj)
    (h : ∀ fields ∈ left, ∀ entry ∈ fields, P entry) :
    (∀ entry ∈ pointer, P entry) ∧ ∀ entry ∈ query, P entry := by
  let good (branch : Json) : Prop := ∃ fields, branch = Json.obj fields ∧ ∀ entry ∈ fields, P entry
  have hkept : ∀ branch ∈ dropRedundant false 2 ([pointer, query].map Json.obj), good branch := by
    intro branch hb
    obtain ⟨fields, hf, rfl⟩ := List.mem_map.mp (hleft ▸ hb)
    exact ⟨fields, rfl, h fields hf⟩
  have hboth : ∀ branch ∈ [pointer, query].map Json.obj, good branch := by
    refine forall_of_dropRedundant ?_ hkept
    intro narrow hn wide hw hpart hgood
    obtain ⟨fields, rfl, hp⟩ := hgood
    -- of two branches that differ, one is the pointer, which holds no doubles
    rcases List.mem_cons.mp hn with rfl | hn
    · exact ⟨_, rfl, fun entry he => hp entry
        (mem_of_isPartOf hpart he (Or.inl (Json.isExact_obj.mp hexact entry he)))⟩
    · obtain rfl := List.mem_singleton.mp hn
      rcases List.mem_cons.mp hw with hw | hw
      · obtain rfl := Json.obj.inj hw
        exact ⟨_, rfl, fun entry he => hp entry (mem_of_isPartOf hpart he (Or.inr hexact))⟩
      · exact ⟨_, rfl, Json.obj.inj (List.mem_singleton.mp hw) ▸ hp⟩
  obtain ⟨_, heq, hpointer⟩ := hboth (.obj pointer) (by simp)
  obtain ⟨_, heq', hquery⟩ := hboth (.obj query) (by simp)
  exact ⟨Json.obj.inj heq ▸ hpointer, Json.obj.inj heq' ▸ hquery⟩

/-- What is left of a pair, the pointer and the query. -/
theorem exists_reducedPair (hq : query.Sorted) (field : String) (constraint : Json) :
    ∃ left : List Object, (∀ fields ∈ left, fields ∈ [[(field, constraint)], query])
      ∧ dropRedundant false 2 ([[(field, constraint)], query].map .obj) = left.map Json.obj
      ∧ reduceAnd [("$and", .arr [.obj [(field, constraint)], .obj query])]
        = aloneWith "$and" left := by
  have hsorted : ∀ fields ∈ [[(field, constraint)], query], Dict.Sorted fields :=
    List.forall_mem_cons.mpr ⟨Dict.sorted_singleton _, List.forall_mem_singleton.mpr hq⟩
  obtain ⟨left, _, hmem, hleft, hreduced⟩ :=
    reduceCombinator_alone false "$and" hsorted (List.cons_ne_nil _ _)
  exact ⟨left, hmem, hleft, hreduced⟩

theorem isExact_pointerBranch (hp : pointsTo s field user = .ok constraint) :
    (Json.obj [(field, constraint)]).isExact = true :=
  Json.isExact_obj.mpr fun _ he => List.mem_singleton.mp he ▸ isExact_pointsTo hp

/-- An alternative asks for all that the query asks. -/
theorem admits_alternative (hq : query.Sorted) (hp : pointsTo s field user = .ok constraint)
    (h : c.Admits v (alternative query field constraint)) : c.Admits v query := by
  unfold alternative at h
  split at h
  next =>
    obtain ⟨left, _, hleft, hreduced⟩ := exists_reducedPair hq field constraint
    rw [hreduced] at h
    rw [Compiler.admits_iff]
    exact (forall_of_reducedPair (isExact_pointerBranch hp) hleft fun fields hf =>
      Compiler.admits_iff.mp (admits_aloneWith_and h fields hf)).2
  next habsent =>
    rw [Compiler.admits_iff] at h ⊢
    refine fun entry he => h entry (Dict.mem_insert_of_ne he ?_)
    rintro rfl
    exact habsent (Dict.contains_iff.mpr ⟨entry.2, hq.get?_eq_some_iff.mpr he⟩)

/-- An alternative takes one more branch if the query does. -/
theorem takesBranch_alternative (hq : query.Sorted) (htakes : TakesBranch query)
    (hfield : field ≠ "$and") : TakesBranch (alternative query field constraint) := by
  unfold alternative
  split
  · have hpointer : TakesBranch [(field, constraint)] := by
      intro value hvalue
      simp [Dict.get?, hfield] at hvalue
    obtain ⟨left, hmem, _, hreduced⟩ := exists_reducedPair hq field constraint
    rw [hreduced]
    refine takesBranch_aloneWith ?_
    intro fields hf
    rcases List.mem_cons.mp (hmem fields hf) with rfl | hf
    · exact hpointer
    · exact List.mem_singleton.mp hf ▸ htakes
  · intro value hvalue
    rw [Dict.get?_insert_of_ne _ _ hfield.symm] at hvalue
    exact htakes value hvalue

/-- An alternative asks for its pointer, also beside an `$and` that gets lost. -/
theorem admitsEntry_of_alternative (hq : query.Sorted) (hfield : field ≠ "$and")
    (hp : pointsTo s field user = .ok constraint)
    (h : AdmitsBesideAnd c v (alternative query field constraint)) :
    c.AdmitsEntry v (field, constraint) := by
  unfold alternative at h
  split at h
  · obtain ⟨left, _, hleft, hreduced⟩ := exists_reducedPair hq field constraint
    rw [hreduced] at h
    have hothers : ∀ fields ∈ left, ∀ entry ∈ fields, entry.1 ≠ "$and" → c.AdmitsEntry v entry := by
      match left with
      | [] => exact fun _ hf => (List.not_mem_nil hf).elim
      | [only] => exact fun fields hf => List.mem_singleton.mp hf ▸ h.others
      | first :: second :: rest =>
        -- the `$and` of the two is a list, so all of it is admitted
        have hall : ∀ fields ∈ first :: second :: rest, c.Admits v fields := admits_aloneWith_and
          (h.whole fun value hvalue => ⟨_, by simpa [aloneWith, Dict.get?] using hvalue.symm⟩)
        exact fun fields hf entry he _ => Compiler.admits_iff.mp (hall fields hf) entry he
    exact (forall_of_reducedPair (isExact_pointerBranch hp) hleft hothers).1 _
      List.mem_cons_self hfield
  · exact h.others _ (Dict.mem_insert_self ..) hfield

theorem canonical_aloneWith {key : String} {left : List Object} (h : ∀ fields ∈ left,
    fields.Canonical) : (aloneWith key left).Canonical := by
  unfold aloneWith
  split
  next only => exact h only List.mem_cons_self
  next =>
    refine ⟨Dict.sorted_singleton _, ?_⟩
    intro entry he
    obtain rfl := List.mem_singleton.mp he
    refine .arr ?_
    intro item hi
    obtain ⟨fields, hf, rfl⟩ := List.mem_map.mp hi
    exact Object.canonical_iff.mp (h fields hf)

theorem canonical_alternative (hq : query.Canonical) (hp : pointsTo s field user = .ok constraint) :
    (alternative query field constraint).Canonical := by
  unfold alternative
  split
  · have hpointer : Object.Canonical [(field, constraint)] :=
      ⟨Dict.sorted_singleton _, fun entry he => List.mem_singleton.mp he ▸ canonical_pointsTo hp⟩
    have hboth : ∀ fields ∈ [[(field, constraint)], query], Object.Canonical fields :=
      List.forall_mem_cons.mpr ⟨hpointer, List.forall_mem_singleton.mpr hq⟩
    obtain ⟨left, hmem, _, hreduced⟩ := exists_reducedPair hq.sorted field constraint
    rw [hreduced]
    exact canonical_aloneWith fun fields hf => hboth fields (hmem fields hf)
  · exact hq.insert field (canonical_pointsTo hp)

/-! ## All alternatives -/

/-- Some alternatives are those that some fields make for a user, one for each field. -/
def AreAlternatives (s : Schema) (user : String) (query : Object) (fields : List String)
    (alternatives : List Object) : Prop :=
  List.Forall₂ (fun field made => ∃ constraint, pointsTo s field user = .ok constraint
    ∧ made = alternative query field constraint) fields alternatives

namespace AreAlternatives

variable {alternatives : List Object} {made : Object}

theorem exists_field (h : AreAlternatives s user query fields alternatives)
    (hm : made ∈ alternatives) : ∃ field ∈ fields, ∃ constraint,
      pointsTo s field user = .ok constraint ∧ made = alternative query field constraint :=
  exists_left_of_mem h hm

theorem exists_made (h : AreAlternatives s user query fields alternatives) (hf : field ∈ fields) :
    ∃ made ∈ alternatives, ∃ constraint, pointsTo s field user = .ok constraint
      ∧ made = alternative query field constraint :=
  exists_right_of_mem h hf

theorem ne_nil (h : AreAlternatives s user query fields alternatives) (hne : fields ≠ []) :
    alternatives ≠ [] := by
  rintro rfl
  exact hne (List.forall₂_nil_right_iff.mp h)

theorem canonical (h : AreAlternatives s user query fields alternatives) (hq : query.Canonical)
    (hm : made ∈ alternatives) : made.Canonical := by
  obtain ⟨field, _, constraint, hp, rfl⟩ := h.exists_field hm
  exact canonical_alternative hq hp

end AreAlternatives

/-- What is left of alternatives when the redundant ones are dropped. -/
theorem exists_anyAlternative {alternatives : List Object} (hne : alternatives ≠ [])
    (hsorted : ∀ made ∈ alternatives, Dict.Sorted made) :
    ∃ left : List Object, left ≠ [] ∧ (∀ made ∈ left, made ∈ alternatives)
      ∧ dropRedundant true alternatives.length (alternatives.map .obj) = left.map Json.obj
      ∧ anyAlternative alternatives = aloneWith "$or" left := by
  match alternatives with
  | [only] => exact ⟨[only], hne, fun _ hm => hm, rfl, rfl⟩
  | first :: second :: rest => exact reduceCombinator_alone true "$or" hsorted hne

/-- What the alternatives admit together, one of them admits, each but for an `$and` that is no
list. -/
theorem exists_admitsBesideAnd_of_anyAlternative {alternatives : List Object}
    (hne : alternatives ≠ []) (hsorted : ∀ query ∈ alternatives, query.Sorted)
    (h : AdmitsBesideAnd c v (anyAlternative alternatives)) :
    ∃ query ∈ alternatives, AdmitsBesideAnd c v query := by
  have hleft : ∀ left : List Object, left ≠ [] → AdmitsBesideAnd c v (aloneWith "$or" left) →
      ∃ query ∈ left, AdmitsBesideAnd c v query := by
    intro left hne h
    match left with
    | [only] => exact ⟨only, List.mem_cons_self, h⟩
    | first :: second :: rest =>
      have hor : "$or" ≠ "$and" := by decide
      have hentry := h.others _ List.mem_cons_self hor
      obtain ⟨fields, hmem, ha⟩ := Compiler.exists_branch_of_admits_or hentry (by simp)
      obtain ⟨_, hf, heq⟩ := List.mem_map.mp hmem
      exact ⟨fields, Json.obj.inj heq ▸ hf, .of_admits ha⟩
  obtain ⟨left, hne', hmem, _, hany⟩ := exists_anyAlternative hne hsorted
  obtain ⟨query, hq, ha⟩ := hleft left hne' (hany ▸ h)
  exact ⟨query, hmem query hq, ha⟩

theorem canonical_anyAlternative {alternatives : List Object} (hne : alternatives ≠ [])
    (h : ∀ query ∈ alternatives, query.Canonical) : (anyAlternative alternatives).Canonical := by
  obtain ⟨left, _, hmem, _, hany⟩ := exists_anyAlternative hne fun made hm => (h made hm).sorted
  rw [hany]
  exact canonical_aloneWith fun made hm => h made (hmem made hm)

/-! ## The restriction -/

/-- The fields whose pointers may grant an operation on a class. -/
def pointerFields (s : Schema) (op : Operation) : List String :=
  (s.permissions.map (·.userFields op)).getD []

/-- A query stays as it is where the operation is granted to the groups, or to no field. -/
theorem restrictToPointers_eq_query
    (h : Permissions.allows s.permissions groups op = true ∨ pointerFields s op = []) :
    restrictToPointers s op query groups = .ok (some query) := by
  unfold restrictToPointers
  split
  next => rfl
  next hdenied =>
    have hnil := h.resolve_left hdenied
    rw [pointerFields] at hnil
    simp only [hnil, List.isEmpty_nil, if_true]

/-- Where only pointer fields grant an operation, it takes exactly one user for them to point at,
and each of them makes an alternative. -/
theorem restrictToPointers_eq_match
    (hdenied : Permissions.allows s.permissions groups op = false)
    (hne : pointerFields s op ≠ []) :
    restrictToPointers s op query groups =
      match users groups with
      | [user] => Except.map (fun alternatives => some (anyAlternative alternatives))
          ((pointerFields s op).mapM fun field =>
            Except.map (alternative query field) (pointsTo s field user))
      | _ => .ok none := by
  have hfields : (pointerFields s op).isEmpty = false := by simpa using hne
  rw [pointerFields] at hfields
  simp only [restrictToPointers, hdenied, Bool.false_eq_true, if_false, hfields]
  rfl

/-- Where only pointer fields grant an operation, nothing can match without exactly one user. -/
theorem restrictToPointers_eq_none (hdenied : Permissions.allows s.permissions groups op = false)
    (hne : pointerFields s op ≠ []) (hnobody : ∀ user, users groups ≠ [user]) :
    restrictToPointers s op query groups = .ok none := by
  rw [restrictToPointers_eq_match hdenied hne]
  split
  next user husers => exact absurd husers (hnobody user)
  next => rfl

/-- A restricted query is the query itself, or it asks for one of the alternatives that the pointer
fields make, and then exactly one of the groups is a user. -/
theorem restrictToPointers_eq_ok (h : restrictToPointers s op query groups = .ok (some permitted)) :
    ((Permissions.allows s.permissions groups op = true ∨ pointerFields s op = [])
      ∧ permitted = query) ∨
    (pointerFields s op ≠ [] ∧ ∃ user alternatives, users groups = [user]
      ∧ AreAlternatives s user query (pointerFields s op) alternatives
      ∧ permitted = anyAlternative alternatives) := by
  by_cases hgranted : Permissions.allows s.permissions groups op = true ∨ pointerFields s op = []
  · rw [restrictToPointers_eq_query hgranted] at h
    exact Or.inl ⟨hgranted, (Option.some.inj (Except.ok.inj h)).symm⟩
  · obtain ⟨hdenied, hne⟩ := not_or.mp hgranted
    rw [restrictToPointers_eq_match (Bool.eq_false_iff.mpr hdenied) hne] at h
    split at h
    next user husers =>
      obtain ⟨alternatives, hmap, heq⟩ := map_eq_ok.mp h
      refine Or.inr ⟨hne, user, alternatives, husers, ?_, (Option.some.inj heq).symm⟩
      refine (mapM_eq_ok.mp hmap).imp ?_
      intro field made hmade
      obtain ⟨constraint, hp, heq⟩ := map_eq_ok.mp hmade
      exact ⟨constraint, hp, heq.symm⟩
    next => cases h

theorem canonical_restrictToPointers (hq : query.Canonical)
    (h : restrictToPointers s op query groups = .ok (some permitted)) : permitted.Canonical := by
  rcases restrictToPointers_eq_ok h with ⟨_, rfl⟩ | ⟨hne, user, alternatives, _, hmade, rfl⟩
  · exact hq
  · exact canonical_anyAlternative (hmade.ne_nil hne) fun _ hm => hmade.canonical hq hm

/-- A restricted query is the query itself, or it admits what one of the alternatives admits. -/
theorem exists_alternative_of_restrictToPointers (hq : query.Canonical)
    (h : restrictToPointers s op query groups = .ok (some permitted))
    (ha : AdmitsBesideAnd c v permitted) :
    ((Permissions.allows s.permissions groups op = true ∨ pointerFields s op = [])
      ∧ permitted = query) ∨
    ∃ user, users groups = [user] ∧ ∃ field ∈ pointerFields s op, ∃ constraint,
      pointsTo s field user = .ok constraint
        ∧ AdmitsBesideAnd c v (alternative query field constraint) := by
  refine (restrictToPointers_eq_ok h).imp_right ?_
  rintro ⟨hne, user, alternatives, husers, hmade, rfl⟩
  obtain ⟨made, hm, ha⟩ := exists_admitsBesideAnd_of_anyAlternative (hmade.ne_nil hne)
    (fun _ hm => (hmade.canonical hq hm).sorted) ha
  obtain ⟨field, hf, constraint, hp, rfl⟩ := hmade.exists_field hm
  exact ⟨user, husers, field, hf, constraint, hp, ha⟩

/-- What a restricted query admits is admitted by the query, if this has no `$and` but a list. -/
theorem admits_of_restrictToPointers (hq : query.Canonical)
    (h : restrictToPointers s op query groups = .ok (some permitted))
    (hfields : "$and" ∉ pointerFields s op) (htakes : TakesBranch query)
    (ha : AdmitsBesideAnd c v permitted) : c.Admits v query := by
  rcases exists_alternative_of_restrictToPointers hq h ha with
    ⟨_, rfl⟩ | ⟨user, _, field, hf, constraint, hp, ha⟩
  · exact ha.whole htakes
  · have hfield : field ≠ "$and" := fun e => hfields (e ▸ hf)
    exact admits_alternative hq.sorted hp
      (ha.whole (takesBranch_alternative hq.sorted htakes hfield))

/-- Where only pointer fields grant an operation, one of them points at the user on all rows that a
restricted query admits. -/
theorem pointsAt_of_restrictToPointers (hq : query.Canonical)
    (h : restrictToPointers s op query groups = .ok (some permitted))
    (hfields : "$and" ∉ pointerFields s op) (ha : AdmitsBesideAnd c v permitted)
    (hdenied : Permissions.allows s.permissions groups op = false)
    (hne : pointerFields s op ≠ []) :
    ∃ user, users groups = [user] ∧ ∃ field ∈ pointerFields s op, PointsAt c v s field user := by
  rcases exists_alternative_of_restrictToPointers hq h ha with
    ⟨hallows | hnil, _⟩ | ⟨user, husers, field, hf, constraint, hp, ha⟩
  · rw [hdenied] at hallows
    cases hallows
  · exact absurd hnil hne
  · have hfield : field ≠ "$and" := fun e => hfields (e ▸ hf)
    exact ⟨user, husers, field, hf,
      pointsAt_of_admits hp (admitsEntry_of_alternative hq.sorted hfield hp ha)⟩

end ObjectStore.Access
