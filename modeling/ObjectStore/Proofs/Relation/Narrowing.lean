import ObjectStore.Proofs.Relation.Intersections

/-!
# Narrowing a query to object ids

A query that allows some more ids is met by the rows that met it before and have one of them, and a
query that excludes some more by those that have none (`meetsIdOf_allow`, `meetsIdOf_exclude`). Both
go through the operators on the id, in which a bare id is one to equal; the lists that are allowed
already are intersected.
-/

namespace ObjectStore

/-- What a row is to a query: its id, and what it takes to meet constraints on other fields, and
operators on the id beside those that compare it with given ids. -/
structure Reading where
  id : String
  meetsField : String → Json → Prop
  meetsOthers : Object → Prop
  meetsOthers_nil : meetsOthers []

/-! ## Operators on the id -/

/-- Whether a value is a list of texts. -/
def Json.isTextList (value : Json) : Bool := value.arr?.any (·.all (·.str?.isSome))

namespace Reading

/-- A value is a list that has the id of the row. -/
def IsListedIn (r : Reading) (value : Json) : Prop :=
  ∃ items, value = .arr items ∧ .str r.id ∈ items

/-- The operators on the id that do not compare it with given ids. -/
def otherOperators (operators : Object) : Object :=
  operators.filter fun entry => !(["$eq", "$in", "$nin"].contains entry.1)

/-- What it takes to meet operators on the id. -/
@[mk_iff]
structure MeetsOperators (r : Reading) (operators : Object) : Prop where
  equal : ∀ value, operators.get? "$eq" = some value → value = .str r.id
  listed : ∀ value, operators.get? "$in" = some value → r.IsListedIn value
  unlisted : ∀ value, operators.get? "$nin" = some value → ¬ r.IsListedIn value
  others : r.meetsOthers (otherOperators operators)

/-- What it takes to meet a constraint on the id: a bare id, or operators. -/
def MeetsId (r : Reading) : Json → Prop
  | .str id => id = r.id
  | .obj operators => r.MeetsOperators operators
  | value => r.meetsField objectIdField value

/-- What it takes to meet all that a query asks of the id. -/
def MeetsIdOf (r : Reading) (query : Object) : Prop :=
  ∀ value, query.get? objectIdField = some value → r.MeetsId value

end Reading

namespace ObjectIds

/-- Whether operators on the id compare it with texts only. -/
def areComparable (operators : Object) : Bool :=
  (operators.get? "$eq").all (·.str?.isSome) && (operators.get? "$in").all Json.isTextList
    && (operators.get? "$nin").all Json.isTextList

/-- Whether a constraint on the id is an id, or operators that compare it with texts only. -/
def isIdConstraint : Json → Bool
  | .str _ => true
  | .obj operators => areComparable operators
  | _ => false

variable {r : Reading} {query ops : Object} {value : Json}

/-- The id is listed in a value if it is among the texts of it. -/
theorem isListedIn_iff :
    r.IsListedIn value ↔ ∃ list, texts? (some value) = some list ∧ r.id ∈ list := by
  cases value with
  | arr items =>
    have hitem : ∀ item ∈ items, item.str? = some r.id ↔ item = .str r.id := by
      intro item _
      cases item <;> simp [Json.str?]
    simp only [Reading.IsListedIn, texts?, Option.bind_some, Json.arr?, Option.map_some,
      Option.some.injEq, exists_eq_left', Json.arr.injEq, List.mem_filterMap]
    constructor
    · exact fun h => ⟨_, h, rfl⟩
    · rintro ⟨item, hmem, htext⟩
      exact (hitem item hmem).mp htext ▸ hmem
  | _ => simp [Reading.IsListedIn, texts?, Json.arr?]

/-- The id is listed among texts if it is one of them. -/
theorem isListedIn_ofStrings : r.IsListedIn (.ofStrings ids) ↔ r.id ∈ ids := by
  simp [Reading.IsListedIn, Json.ofStrings]

theorem isTextList_ofStrings (ids : List String) : (Json.ofStrings ids).isTextList = true := by
  simp [Json.isTextList, Json.ofStrings, Json.arr?, Json.str?]

/-- All that a query asks of the id is to compare it with texts. -/
def ComparesId (query : Object) : Prop :=
  ∀ value, query.get? objectIdField = some value → isIdConstraint value = true

/-- A query that compares the id with texts says nothing of it, names one, or has operators on it.
-/
theorem ComparesId.cases (h : ComparesId query) :
    query.get? objectIdField = none ∨ (∃ id, query.get? objectIdField = some (.str id)) ∨
      ∃ operators, query.get? objectIdField = some (.obj operators) ∧
        areComparable operators = true := by
  cases hget : query.get? objectIdField with
  | none => exact Or.inl rfl
  | some value =>
    have hvalue := h value hget
    cases value with
    | str id => exact Or.inr (Or.inl ⟨id, rfl⟩)
    | obj operators => exact Or.inr (Or.inr ⟨operators, rfl, hvalue⟩)
    | _ => cases hvalue

/-- Its operators compare the id with texts, however they are written. -/
theorem ComparesId.areComparable_operators (h : ComparesId query) :
    areComparable (operators query) = true := by
  rcases h.cases with hget | ⟨id, hget⟩ | ⟨ops, hget, hops⟩ <;> rw [operators, hget]
  · rfl
  · rfl
  · exact hops

/-- A bare id is an operator to equal, and no constraint is no operators. -/
theorem ComparesId.meetsIdOf_iff (h : ComparesId query) :
    r.MeetsIdOf query ↔ r.MeetsOperators (operators query) := by
  unfold Reading.MeetsIdOf
  rcases h.cases with hget | ⟨id, hget⟩ | ⟨ops, hget, _⟩ <;> rw [operators, hget]
  -- no constraint on the id is met by every row, and so are no operators
  · refine iff_of_true (fun _ h => nomatch h) ⟨?_, ?_, ?_, r.meetsOthers_nil⟩ <;>
      exact fun _ h => nomatch h
  · have hothers : Reading.otherOperators [("$eq", .str id)] = [] := rfl
    constructor
    · intro h
      obtain rfl : id = r.id := h _ rfl
      refine ⟨fun value hvalue => (Option.some.inj hvalue).symm, ?_, ?_,
        hothers ▸ r.meetsOthers_nil⟩ <;>
        exact fun _ h => nomatch h
    · rintro h value hvalue
      obtain rfl := Option.some.inj hvalue
      exact Json.str.inj (h.equal _ rfl)
  · simp [Reading.MeetsId]

/-- The lists that a query allows are the one of the id to equal and the one of `$in`. -/
theorem ComparesId.allowed_eq (h : ComparesId query) :
    allowed query = ((((operators query).get? "$eq").bind Json.str?).map fun id => [id]).toList
      ++ (texts? ((operators query).get? "$in")).toList := by
  rcases h.cases with hget | ⟨id, hget⟩ | ⟨ops, hget, _⟩ <;> rw [allowed, operators, hget] <;> rfl

/-- The ids that a query excludes are those of `$nin`. -/
theorem ComparesId.excluded_eq (h : ComparesId query) :
    excluded query = (texts? ((operators query).get? "$nin")).getD [] := by
  rcases h.cases with hget | ⟨id, hget⟩ | ⟨ops, hget, _⟩ <;> rw [excluded, operators, hget] <;> rfl

/-! ## Narrowing -/

/-- Operators that compare the id with texts are met for all lists that they allow. -/
theorem forall_allowed_iff (h : ComparesId query) :
    (∀ list ∈ allowed query, r.id ∈ list) ↔
      (∀ value, (operators query).get? "$eq" = some value → value = .str r.id) ∧
        ∀ value, (operators query).get? "$in" = some value → r.IsListedIn value := by
  have hops := h.areComparable_operators
  rw [areComparable, Bool.and_eq_true, Bool.and_eq_true] at hops
  rw [h.allowed_eq, List.forall_mem_append]
  refine and_congr ?_ ?_
  · cases hget : (operators query).get? "$eq" with
    | none => simp
    | some value =>
      rw [hget] at hops
      cases value with
      | str id => simp [Json.str?, eq_comm]
      | _ => cases hops.1.1
  · cases hget : (operators query).get? "$in" with
    | none => simp [texts?]
    | some value =>
      rw [hget] at hops
      cases value with
      | arr items => simp [isListedIn_iff, texts?, Json.arr?]
      | _ => cases hops.1.2

/-- A list of ids changes none of the other operators. -/
theorem otherOperators_insert (hkey : key ∈ ["$in", "$nin"]) :
    Reading.otherOperators (ops.insert key value) = Reading.otherOperators ops := by
  refine Dict.filter_insert fun _ => ?_
  simp only [List.mem_cons, List.not_mem_nil, or_false] at hkey
  rcases hkey with rfl | rfl <;> rfl

/-- The object id has its operators, with the one that was given. -/
theorem get?_withOperator (query : Object) (key : String) (ids : List String) :
    (withOperator query key ids).get? objectIdField
      = some (.obj ((operators query).insert key (.ofStrings ids))) :=
  Dict.get?_insert_self ..

/-- A query that compares the id with texts still does with one more list. -/
theorem comparesId_withOperator (h : ComparesId query) (hkey : key ∈ ["$in", "$nin"])
    (ids : List String) : ComparesId (withOperator query key ids) := by
  intro value hvalue
  obtain rfl := Option.some.inj ((get?_withOperator query key ids).symm.trans hvalue)
  have hops := h.areComparable_operators
  rw [areComparable, Bool.and_eq_true, Bool.and_eq_true] at hops
  rw [isIdConstraint, areComparable, Bool.and_eq_true, Bool.and_eq_true]
  simp only [List.mem_cons, List.not_mem_nil, or_false] at hkey
  rcases hkey with rfl | rfl
  · rw [Dict.get?_insert_self, Dict.get?_insert_of_ne _ _ (by decide),
      Dict.get?_insert_of_ne _ _ (by decide)]
    exact ⟨⟨hops.1.1, isTextList_ofStrings ids⟩, hops.2⟩
  · rw [Dict.get?_insert_self, Dict.get?_insert_of_ne _ _ (by decide),
      Dict.get?_insert_of_ne _ _ (by decide)]
    exact ⟨hops.1, isTextList_ofStrings ids⟩

/-- A query with one operator more on the id is met where its operators are. -/
theorem meetsIdOf_withOperator (query : Object) (key : String) (ids : List String) :
    r.MeetsIdOf (withOperator query key ids) ↔
      r.MeetsOperators ((operators query).insert key (.ofStrings ids)) := by
  rw [Reading.MeetsIdOf, get?_withOperator]
  simp [Reading.MeetsId]

/-- A query that allows some ids more is met by the rows that met it and have one of them. -/
theorem meetsIdOf_allow (h : ComparesId query) (ids : List String) :
    r.MeetsIdOf (allow ids query) ↔ r.MeetsIdOf query ∧ r.id ∈ ids := by
  have hlists : r.id ∈ intersect (allowed query ++ [ids]) ↔
      (∀ list ∈ allowed query, r.id ∈ list) ∧ r.id ∈ ids := by
    simp [mem_intersect, or_imp, forall_and]
  rw [allow, meetsIdOf_withOperator, h.meetsIdOf_iff]
  -- the list of what is allowed gives way to the intersection, all else stays
  simp only [Reading.meetsOperators_iff, Dict.get?_insert_self,
    otherOperators_insert (show "$in" ∈ ["$in", "$nin"] by decide),
    Dict.get?_insert_of_ne _ _ (show "$eq" ≠ "$in" by decide),
    Dict.get?_insert_of_ne _ _ (show "$nin" ≠ "$in" by decide), Option.some.injEq, forall_eq',
    isListedIn_ofStrings, hlists, forall_allowed_iff h]
  tauto

/-- A query that excludes some ids more is met by the rows that met it and have none of them. -/
theorem meetsIdOf_exclude (h : ComparesId query) (ids : List String) :
    r.MeetsIdOf (exclude ids query) ↔ r.MeetsIdOf query ∧ r.id ∉ ids := by
  have hexcluded : r.id ∈ excluded query ↔
      ∃ value, (operators query).get? "$nin" = some value ∧ r.IsListedIn value := by
    rw [h.excluded_eq]
    cases hget : (operators query).get? "$nin" with
    | none => simp [texts?]
    | some value =>
      simp only [Option.some.injEq, exists_eq_left', isListedIn_iff]
      cases texts? (some value) <;> simp
  have hlist : r.id ∉ (excluded query ++ ids).eraseDups ↔
      (∀ value, (operators query).get? "$nin" = some value → ¬ r.IsListedIn value) ∧
        r.id ∉ ids := by
    rw [List.mem_eraseDups, List.mem_append, not_or, hexcluded]
    simp only [not_exists, not_and]
  -- the excluded ids give way to both, all else stays
  rw [exclude, meetsIdOf_withOperator, h.meetsIdOf_iff]
  simp only [Reading.meetsOperators_iff, Dict.get?_insert_self,
    otherOperators_insert (show "$nin" ∈ ["$in", "$nin"] by decide),
    Dict.get?_insert_of_ne _ _ (show "$eq" ≠ "$nin" by decide),
    Dict.get?_insert_of_ne _ _ (show "$in" ≠ "$nin" by decide), Option.some.injEq, forall_eq',
    isListedIn_ofStrings, hlist]
  tauto

end ObjectIds

end ObjectStore
