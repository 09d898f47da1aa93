import ObjectStore.Proofs.Json.Canonical
import ObjectStore.Relation.Resolve

/-!
# What constraints on relations mean

A constraint on a relation field is a pointer, or operators on what names objects: a pointer, an id,
or a list of them. What it means is told by the objects that a row leads to (`Related`), and the
filters that are read off a constraint say the same (`forall_ofConstraint_iff`).
-/

namespace ObjectStore

theorem Pointer.get?_of_ofJson? {value : Json} {pointer : Pointer}
    (h : Pointer.ofJson? value = some pointer) :
    value.get? typeKey = some (.str "Pointer") ∧
      value.get? objectIdField = some (.str pointer.objectId) := by
  have hstr : ∀ {member : Json} {text : String}, member.str? = some text → member = .str text := by
    intro member text hmember
    cases member with
    | str _ => exact congrArg Json.str (Option.some.inj hmember)
    | _ => cases hmember
  have htagged : ∀ {key text : String}, value.taggedText? "Pointer" key = some text →
      value.typeTag? = some "Pointer" ∧ value.get? key = some (.str text) := by
    intro key text htext
    obtain ⟨tagged, htag, hmember⟩ := Option.bind_eq_some_iff.mp htext
    obtain ⟨member, hget, htext⟩ := Option.bind_eq_some_iff.mp hmember
    unfold Json.ofTag? at htag
    split at htag
    next htype =>
      obtain rfl := Option.some.inj htag
      exact ⟨eq_of_beq htype, hstr htext ▸ hget⟩
    · cases htag
  obtain ⟨className, hclass, hrest⟩ := Option.bind_eq_some_iff.mp h
  obtain ⟨objectId, hid, heq⟩ := Option.bind_eq_some_iff.mp hrest
  obtain rfl := Option.some.inj heq
  obtain ⟨member, hget, htext⟩ := Option.bind_eq_some_iff.mp (htagged hclass).1
  exact ⟨hstr htext ▸ hget, (htagged hid).2⟩

/-! ## Operands -/

/-- The id that a value names: itself, or that of the object it points to. -/
def operandId? : Json → Option String
  | .str id => some id
  | value => (Pointer.ofJson? value).map (·.objectId)

/-- The ids that an operand names: one, or those of a list. -/
def operandIds? : Json → Option (List String)
  | .arr items => items.mapM operandId?
  | value => (operandId? value).map fun id => [id]

variable {leads : String → Prop} {operand constraint : Json} {named : List String} {id : String}

theorem relatedId?_of_operandId? (h : operandId? operand = some id) :
    relatedId? operand = some id := by
  unfold operandId? at h
  split at h
  · exact h
  next hstr =>
    obtain ⟨pointer, hpointer, rfl⟩ := Option.map_eq_some_iff.mp h
    unfold relatedId?
    split
    next text => exact absurd rfl (hstr text)
    · rw [hpointer]

/-- What names ids is read as naming them. -/
theorem ids_of_operandIds? (h : operandIds? operand = some named) :
    RelationFilter.ids operand = named := by
  have hlist : ∀ (items : List Json) (named : List String), items.mapM operandId? = some named →
      items.filterMap relatedId? = named := by
    intro items
    induction items with
    | nil => exact fun named h => Option.some.inj h
    | cons item rest ih =>
      intro named h
      rw [List.mapM_cons] at h
      obtain ⟨id, hid, h⟩ := Option.bind_eq_some_iff.mp h
      obtain ⟨others, hothers, h⟩ := Option.bind_eq_some_iff.mp h
      obtain rfl := Option.some.inj h
      rw [List.filterMap_cons_some (relatedId?_of_operandId? hid), ih others hothers]
  unfold operandIds? at h
  split at h
  next items => exact hlist items named h
  next hnotList =>
    obtain ⟨id, hid, rfl⟩ := Option.map_eq_some_iff.mp h
    unfold RelationFilter.ids
    split
    next items => exact absurd rfl (hnotList items)
    · rw [relatedId?_of_operandId? hid, Option.toList_some]

/-! ## Constraints -/

/-- The operators that relations know. -/
def relationOperators : List String := ["$in", "$nin", "$ne"]

/-- Whether a constraint is a pointer, or some operators that relations know on what names ids. -/
def isRelationConstraint : Json → Bool
  | .obj members =>
    if (Pointer.ofJson? (.obj members)).isSome then
      relationOperators.all fun operator => !Dict.contains members operator
    else !members.isEmpty && members.all fun member =>
      relationOperators.contains member.1 && (operandIds? member.2).isSome
  | _ => false

/-- A row leads to one of the objects that an operand names. -/
def LeadsTo (leads : String → Prop) (operand : Json) : Prop :=
  ∃ named, operandIds? operand = some named ∧ ∃ id ∈ named, leads id

/-- A row meets a constraint on a relation: it leads to the object of a pointer, or to one that
`$in` names and to none that `$nin` or `$ne` names. -/
def Related (leads : String → Prop) (constraint : Json) : Prop :=
  match Pointer.ofJson? constraint with
  | some pointer => leads pointer.objectId
  | none => (∀ operand, constraint.get? "$in" = some operand → LeadsTo leads operand)
      ∧ (∀ operand, constraint.get? "$nin" = some operand → ¬ LeadsTo leads operand)
      ∧ ∀ operand, constraint.get? "$ne" = some operand → ¬ LeadsTo leads operand

/-! ## Filters -/

namespace RelationFilter

variable {members : Object} {pointer : Pointer}

/-- A row passes a filter: it leads to one of its ids, or to none if the filter is negated. -/
def Holds (leads : String → Prop) (filter : RelationFilter) : Prop :=
  if filter.isNegated then ∀ id ∈ filter.relatedIds, ¬ leads id
  else ∃ id ∈ filter.relatedIds, leads id

theorem leadsTo_iff (h : (operandIds? operand).isSome = true) :
    LeadsTo leads operand ↔ ∃ id ∈ ids operand, leads id := by
  obtain ⟨named, hnamed⟩ := Option.isSome_iff_exists.mp h
  rw [LeadsTo, ids_of_operandIds? hnamed]
  simp [hnamed]

/-- The filter of an operator means what the operator means. -/
theorem forall_ofMember?_iff {key : String} (hkey : relationOperators.contains key = true)
    (hoperand : (operandIds? operand).isSome = true) :
    (∀ filter, ofMember? (key, operand) = some filter → filter.Holds leads) ↔
      (key = "$in" → LeadsTo leads operand) ∧ (key = "$nin" → ¬ LeadsTo leads operand) ∧
        (key = "$ne" → ¬ LeadsTo leads operand) := by
  rw [leadsTo_iff hoperand]
  simp only [relationOperators, List.contains_cons, List.contains_nil, Bool.or_false,
    Bool.or_eq_true, beq_iff_eq] at hkey
  rcases hkey with rfl | rfl | rfl <;> simp [ofMember?, Holds]

theorem ofMember?_cases {member : String × Json} {filter : RelationFilter}
    (h : ofMember? member = some filter) :
    member.1 = objectIdField ∧ filter = ⟨false, ids member.2⟩ ∨
      member.1 ∈ relationOperators := by
  unfold ofMember? at h
  split at h
  · exact Or.inl ⟨rfl, (Option.some.inj h).symm⟩
  · exact Or.inr List.mem_cons_self
  · exact Or.inr (by simp [relationOperators])
  · exact Or.inr (by simp [relationOperators])
  · cases h

/-- The filters of a pointer come to one, that a row leads to its object. -/
theorem forall_ofPointer_iff (hsorted : members.Sorted)
    (h : Pointer.ofJson? (.obj members) = some pointer)
    (hoperators : ∀ operator ∈ relationOperators, members.contains operator = false) :
    (∀ filter ∈ ofConstraint (.obj members), filter.Holds leads) ↔ leads pointer.objectId := by
  obtain ⟨htype, hid⟩ := Pointer.get?_of_ofJson? h
  change members.get? typeKey = _ at htype
  change members.get? objectIdField = _ at hid
  have hreadable : isReadable members = true := by simp [isReadable, htype, Json.str?]
  have hholds : Holds leads ⟨false, ids (.str pointer.objectId)⟩ ↔ leads pointer.objectId := by
    simp [Holds, ids, relatedId?]
  rw [ofConstraint, if_pos hreadable]
  constructor
  · intro hall
    exact hholds.mp (hall _ (List.mem_filterMap.mpr ⟨_, Dict.mem_of_get? hid, rfl⟩))
  · intro hleads filter hfilter
    obtain ⟨⟨key, value⟩, hmember, hof⟩ := List.mem_filterMap.mp hfilter
    have hget := hsorted.get?_eq_some_iff.mpr hmember
    rcases ofMember?_cases hof with ⟨rfl, rfl⟩ | hoperator
    · obtain rfl := Option.some.inj (hid.symm.trans hget)
      exact hholds.mpr hleads
    · have hcontains := Dict.contains_iff.mpr ⟨value, hget⟩
      rw [hoperators _ hoperator] at hcontains
      cases hcontains

/-- The filters of some operators mean what all of these mean. -/
theorem forall_ofOperators_iff (hsorted : members.Sorted) (hsome : members ≠ [])
    (h : ∀ member ∈ members, relationOperators.contains member.1 = true ∧
      (operandIds? member.2).isSome = true) :
    (∀ filter ∈ ofConstraint (.obj members), filter.Holds leads) ↔
      (∀ operand, members.get? "$in" = some operand → LeadsTo leads operand) ∧
        (∀ operand, members.get? "$nin" = some operand → ¬ LeadsTo leads operand) ∧
          ∀ operand, members.get? "$ne" = some operand → ¬ LeadsTo leads operand := by
  have hreadable : isReadable members = true := by
    obtain ⟨member, hmember⟩ := List.exists_mem_of_ne_nil members hsome
    have hcontains : members.contains member.1 = true :=
      Dict.contains_iff.mpr ⟨member.2, hsorted.get?_eq_some_iff.mpr hmember⟩
    rw [isReadable, Bool.or_eq_true, List.any_eq_true]
    exact Or.inr ⟨member.1, List.contains_iff_mem.mp (h member hmember).1, hcontains⟩
  have hfilters : (∀ filter ∈ members.filterMap ofMember?, filter.Holds leads) ↔
      ∀ member ∈ members, ∀ filter, ofMember? member = some filter → filter.Holds leads := by
    simp only [List.mem_filterMap]
    constructor
    · intro hall member hmember filter hof
      exact hall filter ⟨member, hmember, hof⟩
    · rintro hall filter ⟨member, hmember, hof⟩
      exact hall member hmember filter hof
  rw [ofConstraint, if_pos hreadable, hfilters]
  simp only [hsorted.get?_eq_some_iff]
  constructor
  · intro hall
    have hmember : ∀ {key operand}, (key, operand) ∈ members → _ := fun {key operand} hm =>
      (forall_ofMember?_iff (h _ hm).1 (h _ hm).2).mp (hall _ hm)
    refine ⟨?_, ?_, ?_⟩
    · exact fun _ hm => (hmember hm).1 rfl
    · exact fun _ hm => (hmember hm).2.1 rfl
    · exact fun _ hm => (hmember hm).2.2 rfl
  · rintro ⟨hin, hnin, hne⟩ ⟨key, operand⟩ hm
    refine (forall_ofMember?_iff (h _ hm).1 (h _ hm).2).mpr ⟨?_, ?_, ?_⟩
    · exact fun hkey => hin operand (hkey ▸ hm)
    · exact fun hkey => hnin operand (hkey ▸ hm)
    · exact fun hkey => hne operand (hkey ▸ hm)

/-- The filters of a constraint mean what the constraint means. -/
theorem forall_ofConstraint_iff (h : isRelationConstraint constraint = true)
    (hc : constraint.Canonical) :
    (∀ filter ∈ ofConstraint constraint, filter.Holds leads) ↔ Related leads constraint := by
  cases constraint with
  | obj members =>
    have hsorted := (Object.canonical_iff.mpr hc).sorted
    unfold Related
    cases hpointer : Pointer.ofJson? (.obj members) with
    | some pointer =>
      rw [isRelationConstraint, hpointer, Option.isSome_some, if_pos rfl, List.all_eq_true] at h
      refine forall_ofPointer_iff hsorted hpointer ?_
      intro operator hmem
      simpa using h operator hmem
    | none =>
      rw [isRelationConstraint, hpointer, if_neg (by decide), Bool.and_eq_true,
        List.all_eq_true] at h
      refine forall_ofOperators_iff hsorted (by simpa using h.1) ?_
      intro member hm
      simpa only [Bool.and_eq_true] using h.2 member hm
  | _ => cases h

end RelationFilter

end ObjectStore
