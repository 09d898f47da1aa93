import ObjectStore.Proofs.Relation.Narrowing

/-!
# Narrowing a query again and again

Relations narrow one query after another to ids, or away from ids. Each time the operators on the id
are merged with one list more, and what an id must be to pass is what it had to be before and one
condition more (`allows_apply`). So after any number of times it is a conjunction
(`allows_narrow`), which has no order; what else the query asks, of the id and of other fields, is
as it was (`narrow_conjoins`).
-/

namespace ObjectStore.ObjectIds

variable {query : Object} {operator : String}

/-! ## One more list -/

/-- A query is narrowed to some ids, or away from some. -/
inductive Narrowing where
  | allow (ids : List String)
  | exclude (ids : List String)

/-- A query with one list of ids more. -/
def Narrowing.apply (query : Object) : Narrowing → Object
  | .allow ids => ObjectIds.allow ids query
  | .exclude ids => ObjectIds.exclude ids query

/-- The operator that a list of ids is merged into. -/
def Narrowing.key : Narrowing → String
  | .allow _ => "$in"
  | .exclude _ => "$nin"

/-- An id passes one list. -/
def Narrowing.Keeps (id : String) : Narrowing → Prop
  | .allow ids => id ∈ ids
  | .exclude ids => id ∉ ids

/-- A query after some narrowings, one after another. -/
def narrow (steps : List Narrowing) (query : Object) : Object := steps.foldl Narrowing.apply query

/-- A row of which only the id counts. -/
def idAlone (id : String) : Reading := ⟨id, fun _ _ => True, fun _ => True, trivial⟩

/-- An id satisfies the `$eq`, `$in` and `$nin` that a query has for the object id; a bare id is one
to equal. -/
def Allows (query : Object) (id : String) : Prop := (idAlone id).MeetsIdOf query

variable {step : Narrowing} {steps : List Narrowing}

/-- One list more is one condition more. -/
theorem allows_apply (h : ComparesId query) (step : Narrowing) (id : String) :
    Allows (step.apply query) id ↔ Allows query id ∧ step.Keeps id := by
  cases step with
  | allow ids => exact meetsIdOf_allow h ids
  | exclude ids => exact meetsIdOf_exclude h ids

theorem comparesId_apply (h : ComparesId query) (step : Narrowing) :
    ComparesId (step.apply query) := by
  cases step with
  | allow ids => exact comparesId_withOperator h (by decide) _
  | exclude ids => exact comparesId_withOperator h (by decide) _

/-- One list more goes into one operator, all others stay. -/
theorem get?_operators_apply (step : Narrowing) (hkey : operator ≠ step.key) :
    (operators (step.apply query)).get? operator = (operators query).get? operator := by
  have hinsert : ∀ other ids, operator ≠ other →
      (operators (withOperator query other ids)).get? operator
        = (operators query).get? operator := by
    intro other ids hother
    rw [operators, get?_withOperator]
    exact Dict.get?_insert_of_ne _ _ hother
  cases step with
  | allow ids => exact hinsert _ _ hkey
  | exclude ids => exact hinsert _ _ hkey

/-- One list more touches nothing but the constraint on the id. -/
theorem erase_apply (query : Object) (step : Narrowing) :
    (step.apply query).erase objectIdField = query.erase objectIdField := by
  cases step with
  | allow ids => exact Dict.erase_insert ..
  | exclude ids => exact Dict.erase_insert ..

/-! ## Any number of lists -/

theorem allows_narrow (h : ComparesId query) (steps : List Narrowing) (id : String) :
    Allows (narrow steps query) id ↔ Allows query id ∧ ∀ step ∈ steps, step.Keeps id := by
  induction steps generalizing query with
  | nil => simp [narrow]
  | cons step rest ih =>
    have hrest := ih (comparesId_apply h step)
    rw [List.forall_mem_cons, ← and_assoc, ← allows_apply h step id]
    exact hrest

theorem get?_operators_narrow (hkey : ∀ step ∈ steps, operator ≠ step.key) :
    (operators (narrow steps query)).get? operator = (operators query).get? operator := by
  induction steps generalizing query with
  | nil => rfl
  | cons step rest ih =>
    rw [List.forall_mem_cons] at hkey
    show (operators (narrow rest (step.apply query))).get? operator = _
    rw [ih hkey.2, get?_operators_apply step hkey.1]

theorem erase_narrow (steps : List Narrowing) (query : Object) :
    (narrow steps query).erase objectIdField = query.erase objectIdField := by
  induction steps generalizing query with
  | nil => rfl
  | cons step rest ih =>
    show (narrow rest (step.apply query)).erase objectIdField = _
    rw [ih, erase_apply]

/-- Narrowing a query that compares the id with texts is a conjunction: whatever lists it is
narrowed to and away from, the ids that it allows then are those that it allowed before and that
pass all the lists, in whatever order these come. The operators that no list goes into stay as they
are, and so do all other entries; and it is all the same how lists are intersected. -/
theorem narrow_conjoins (query : Object) (h : ComparesId query) (steps : List Narrowing) :
    (∀ id, Allows (narrow steps query) id ↔ Allows query id ∧ ∀ step ∈ steps, step.Keeps id)
      ∧ (∀ other : List Narrowing, other.Perm steps →
        ∀ id, Allows (narrow other query) id ↔ Allows (narrow steps query) id)
      ∧ (∀ operator, (∀ step ∈ steps, operator ≠ step.key) →
        (operators (narrow steps query)).get? operator = (operators query).get? operator)
      ∧ (narrow steps query).erase objectIdField = query.erase objectIdField
      ∧ ∀ lists, intersectBySearch lists = intersect lists
        ∧ intersectByCount lists = intersect lists := by
  refine ⟨allows_narrow h steps, ?_, fun operator hkey => get?_operators_narrow hkey,
    erase_narrow steps query, ?_⟩
  · intro other hperm id
    have hkeeps : (∀ step ∈ other, step.Keeps id) ↔ ∀ step ∈ steps, step.Keeps id := by
      simp only [hperm.mem_iff]
    rw [allows_narrow h other, allows_narrow h steps, hkeeps]
  · intro lists
    rw [intersect_eq, intersectByCount_eq]
    exact ⟨rfl, rfl⟩

/-- A query that allows some ids, excludes one, and asks two things more. -/
def someOfThree : Object :=
  [("age", .int 5), (objectIdField, .obj [("$exists", .bool true),
    ("$in", .ofStrings ["a", "b", "c"]), ("$nin", .ofStrings ["c"])])]

/-- What is left of three ids when only two may be and one of these may not. -/
theorem someOfThree_conjoins :
    ComparesId someOfThree
      ∧ narrow [.allow ["b", "z", "a"], .exclude ["a", "c"]] someOfThree
        = [("age", .int 5), (objectIdField, .obj [("$exists", .bool true),
            ("$in", .ofStrings ["a", "b"]), ("$nin", .ofStrings ["c", "a"])])]
      ∧ ∀ id, Allows (narrow [.exclude ["a", "c"], .allow ["b", "z", "a"]] someOfThree) id
        ↔ Allows someOfThree id ∧ id ∈ ["b", "z", "a"] ∧ id ∉ ["a", "c"] := by
  have hcompares : ComparesId someOfThree := by
    intro value hvalue
    obtain rfl := Option.some.inj hvalue
    rfl
  have hconjoins := narrow_conjoins someOfThree hcompares
    [.allow ["b", "z", "a"], .exclude ["a", "c"]]
  refine ⟨hcompares, by cbv, ?_⟩
  intro id
  rw [hconjoins.2.1 _ (.swap ..) id, hconjoins.1 id, List.forall_mem_cons,
    List.forall_mem_singleton]
  exact Iff.rfl

end ObjectStore.ObjectIds
