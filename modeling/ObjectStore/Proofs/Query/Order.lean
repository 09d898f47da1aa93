import ObjectStore.Proofs.Query.Mention

/-!
# The order that a query asks for

Only a search near to a place asks for an order of the rows. So the sort clauses of a compiled query
are the distances from these places, one for each field that has one, in the order in which the
fields are met (`sorts_ofQuery`), and each of them binds two values.
-/

namespace ObjectStore

open Sql Result

namespace Operator

/-- The sort clauses that an operator on a field asks for. -/
def orders (f : FieldRef) : Operator → List Sql
  | .near point _ => [f.distanceTo point ++ Sql.text " ASC"]
  | _ => []

variable {f : FieldRef} {operator : Operator} {now : Timestamp} {out : Compiled}

/-- What is compiled to a condition alone has no sort clause. -/
theorem sorts_of_map {x : Result Predicate} (h : x.map Compiled.ofPredicate = .ok out) :
    out.sorts = [] := by
  obtain ⟨_, _, rfl⟩ := map_eq_ok.mp h
  rfl

/-- A field that is one of some values asks for no order. -/
theorem sorts_isIn {values : List Json} (h : f.isIn values = .ok out) : out.sorts = [] := by
  simp only [FieldRef.isIn, FieldRef.pathIsIn] at h
  split at h
  · split at h
    · cases h
    · obtain rfl := Except.ok.inj h
      rfl
  · obtain rfl := Except.ok.inj h
    rfl

/-- A field that holds all of some values asks for no order. -/
theorem sorts_holdsAll {values : List Json} (h : f.holdsAll values = .ok out) : out.sorts = [] := by
  unfold FieldRef.holdsAll at h
  split at h
  · split at h
    · obtain rfl := Except.ok.inj h
      rfl
    · obtain rfl := Except.ok.inj h
      rfl
  · dsimp only at h
    split at h
    · obtain rfl := Except.ok.inj h
      rfl
    · split at h
      · cases h
      · obtain rfl := Except.ok.inj h
        rfl

/-- An operator compiles to the sort clauses that it asks for. -/
theorem sorts_compile (h : f.compileOperator now operator = .ok out) :
    out.sorts = operator.orders f := by
  cases operator with
  | notEqual _ | equal _ | tagged _ | compare _ _ => exact sorts_of_map h
  | isIn values => exact sorts_isIn h
  | containsAll values => exact sorts_holdsAll h
  | notIn values =>
    obtain rfl := Except.ok.inj h
    unfold FieldRef.notIn
    dsimp only
    split <;> rfl
  | isPresent _ | containedBy _ | matchesText _ | near _ _ | inBox _ _ | inSphere _ _
  | inPolygon _ | intersects _ | matchesPattern _ _ =>
    obtain rfl := Except.ok.inj h
    rfl

/-- An operator that asks for an order also asks for a condition. -/
theorem asserts_compile (h : f.compileOperator now operator = .ok out) : out.Asserts := by
  intro hsorts
  rw [sorts_compile h] at hsorts
  cases operator with
  | near point maxDistance =>
    obtain rfl := Except.ok.inj h
    -- the place is near enough or, without a distance, there at all
    cases maxDistance <;>
      simp [FieldRef.near, FieldRef.withinDistance, FieldRef.isNotNull, Compiled.clauses]
  | _ => exact absurd rfl hsorts

/-! ### Which operators an object holds -/

variable {key : String} {fields : Object} {ops : List Operator}

/-- No sort clause comes from some operators. -/
def Unordered (f : FieldRef) (ops : List Operator) : Prop := ops.flatMap (orders f) = []

/-- No operators ask for no order. -/
theorem unordered_nil : Unordered f [] := rfl

/-- An operator that asks for no order asks for none alone. -/
theorem unordered_single (h : operator.orders f = []) : Unordered f [operator] := by
  simpa [Unordered] using h

/-- What is read with any value asks for no order if the operator does not. -/
theorem unordered_readAny {make : Json → Operator} (hmake : ∀ value, (make value).orders f = [])
    (h : readAny key make fields = .ok ops) : Unordered f ops := by
  obtain rfl := Except.ok.inj h
  cases fields.get? key with
  | none => exact unordered_nil
  | some value => exact unordered_single (hmake value)

/-- What is read with a list of values asks for no order if the operator does not. -/
theorem unordered_readList {make : List Json → Operator}
    (hmake : ∀ values, (make values).orders f = []) (h : readList key make fields = .ok ops) :
    Unordered f ops := by
  unfold readList at h
  split at h
  · obtain rfl := Except.ok.inj h
    exact unordered_nil
  · obtain ⟨values, _, h⟩ := bind_eq_ok.mp h
    obtain rfl := pure_eq_ok.mp h
    exact unordered_single (hmake values)

/-- `$exists` asks for no order. -/
theorem unordered_readPresence (h : readPresence fields = .ok ops) : Unordered f ops := by
  unfold readPresence at h
  split at h
  · obtain rfl := Except.ok.inj h
    exact unordered_nil
  · obtain ⟨_, _, h⟩ := bind_eq_ok.mp h
    obtain rfl := pure_eq_ok.mp h
    exact unordered_single rfl

/-- `$containedBy` asks for no order. -/
theorem unordered_readContainedBy (h : readContainedBy fields = .ok ops) : Unordered f ops := by
  unfold readContainedBy at h
  split at h
  · obtain rfl := Except.ok.inj h
    exact unordered_nil
  · split at h
    · obtain rfl := Except.ok.inj h
      exact unordered_single rfl
    · cases h

/-- `$text` asks for no order. -/
theorem unordered_readText (h : readText fields = .ok ops) : Unordered f ops := by
  unfold readText at h
  split at h
  · obtain rfl := Except.ok.inj h
    exact unordered_nil
  · obtain ⟨_, _, h⟩ := bind_eq_ok.mp h
    obtain rfl := pure_eq_ok.mp h
    exact unordered_single rfl

/-- The corners of a box ask for no order. -/
theorem unordered_corners {payload : Json} (h : corners payload = .ok operator) :
    operator.orders f = [] := by
  unfold corners at h
  split at h
  · obtain ⟨_, _, h⟩ := bind_eq_ok.mp h
    obtain ⟨_, _, h⟩ := bind_eq_ok.mp h
    obtain rfl := pure_eq_ok.mp h
    rfl
  · cases h

/-- A sphere asks for no order, unlike a place to be near to. -/
theorem unordered_sphere {payload : Json} (h : sphere payload = .ok operator) :
    operator.orders f = [] := by
  unfold sphere at h
  split at h
  · obtain ⟨_, _, h⟩ := bind_eq_ok.mp h
    obtain ⟨_, _, h⟩ := bind_eq_ok.mp h
    obtain ⟨_, _, h⟩ := bind_eq_ok.mp h
    obtain rfl := pure_eq_ok.mp h
    rfl
  · cases h

/-- A polygon asks for no order. -/
theorem unordered_polygon {payload : Json} (h : polygon payload = .ok operator) :
    operator.orders f = [] := by
  obtain ⟨_, _, h⟩ := bind_eq_ok.mp h
  obtain ⟨_, _, h⟩ := bind_eq_ok.mp h
  obtain rfl := pure_eq_ok.mp h
  rfl

/-- `$within` asks for no order. -/
theorem unordered_readBox (h : readBox fields = .ok ops) : Unordered f ops := by
  unfold readBox at h
  split at h
  · obtain rfl := Except.ok.inj h
    exact unordered_nil
  · obtain ⟨_, hcorners, h⟩ := bind_eq_ok.mp h
    obtain rfl := pure_eq_ok.mp h
    exact unordered_single (unordered_corners hcorners)

/-- An area asks for no order if what is read of it does not. -/
theorem unordered_readArea {read : Json → Result Operator}
    (hread : ∀ payload operator, read payload = .ok operator → operator.orders f = [])
    (h : readArea key read fields = .ok ops) : Unordered f ops := by
  unfold readArea at h
  split at h
  · obtain rfl := Except.ok.inj h
    exact unordered_nil
  · obtain ⟨operator, hoperator, h⟩ := bind_eq_ok.mp h
    obtain rfl := pure_eq_ok.mp h
    exact unordered_single (hread _ _ hoperator)

/-- `$geoIntersects` asks for no order. -/
theorem unordered_readIntersects (h : readIntersects fields = .ok ops) : Unordered f ops := by
  unfold readIntersects at h
  split at h
  · obtain rfl := Except.ok.inj h
    exact unordered_nil
  · obtain ⟨_, _, h⟩ := bind_eq_ok.mp h
    obtain rfl := pure_eq_ok.mp h
    exact unordered_single rfl

/-- `$regex` asks for no order. -/
theorem unordered_readPattern (h : readPattern fields = .ok ops) : Unordered f ops := by
  unfold readPattern at h
  split at h
  · obtain rfl := Except.ok.inj h
    exact unordered_nil
  · obtain ⟨_, _, h⟩ := bind_eq_ok.mp h
    obtain ⟨_, _, h⟩ := bind_eq_ok.mp h
    obtain rfl := pure_eq_ok.mp h
    exact unordered_single rfl

/-- A tagged value is compared for equality, which asks for no order. -/
theorem unordered_readTagged (h : readTagged fields = .ok ops) : Unordered f ops := by
  unfold readTagged at h
  split at h
  · obtain rfl := Except.ok.inj h
    exact unordered_nil
  · obtain ⟨tagged, _, h⟩ := bind_eq_ok.mp h
    obtain rfl := pure_eq_ok.mp h
    cases tagged with
    | none => exact unordered_nil
    | some value => exact unordered_single rfl

/-- A bound asks for no order. -/
theorem unordered_readBound (comparator : Comparator) (h : readBound comparator fields = .ok ops) :
    Unordered f ops := by
  obtain rfl := Except.ok.inj h
  cases (fields.get? comparator.key).filter isBound with
  | none => exact unordered_nil
  | some value => exact unordered_single rfl

/-- The key of a place to be near to. -/
def nearKey : String := "$nearSphere"

/-- A place to be near to is one sort clause. -/
theorem orders_readNear (h : readNear fields = .ok ops) :
    (fields.get? nearKey = none ∧ ops.flatMap (orders f) = []) ∨
    (fields.get? nearKey ≠ none ∧
      ∃ point, ops.flatMap (orders f) = [f.distanceTo point ++ Sql.text " ASC"]) := by
  unfold readNear at h
  split at h
  next hget =>
    obtain rfl := Except.ok.inj h
    exact Or.inl ⟨hget, rfl⟩
  next payload hget =>
    obtain ⟨point, _, h⟩ := bind_eq_ok.mp h
    obtain ⟨_, _, h⟩ := bind_eq_ok.mp h
    obtain rfl := pure_eq_ok.mp h
    exact Or.inr ⟨by simp [nearKey, hget], point, rfl⟩

/-- The readers that run before that of a place to be near to, and those that run after it. -/
theorem unordered_of_mem {read : Object → Result (List Operator)}
    (hmem : read ∈ readers.take 8 ++ readers.drop 9) (h : read fields = .ok ops) :
    Unordered f ops := by
  simp only [readers, Comparator.all, List.map_cons, List.map_nil, List.cons_append,
    List.nil_append, List.take_succ_cons, List.take_zero, List.drop_succ_cons, List.drop_zero,
    List.mem_cons, List.not_mem_nil, or_false] at hmem
  rcases hmem with rfl | rfl | rfl | rfl | rfl | rfl | rfl | rfl | rfl | rfl | rfl | rfl | rfl | rfl
    | rfl | rfl | rfl | rfl
  · exact unordered_readAny (fun _ => rfl) h
  · exact unordered_readAny (fun _ => rfl) h
  · exact unordered_readList (fun _ => rfl) h
  · exact unordered_readList (fun _ => rfl) h
  · exact unordered_readList (fun _ => rfl) h
  · exact unordered_readPresence h
  · exact unordered_readContainedBy h
  · exact unordered_readText h
  · exact unordered_readBox h
  · exact unordered_readArea (fun _ _ => unordered_sphere) h
  · exact unordered_readArea (fun _ _ => unordered_polygon) h
  · exact unordered_readIntersects h
  · exact unordered_readPattern h
  · exact unordered_readTagged h
  · exact unordered_readBound _ h
  · exact unordered_readBound _ h
  · exact unordered_readBound _ h
  · exact unordered_readBound _ h

/-- What is read by readers other than that of a place asks for no order. -/
theorem unordered_flatten {some : List (Object → Result (List Operator))}
    {found : List (List Operator)}
    (h : List.Forall₂ (fun read ops => read fields = .ok ops) some found)
    (hmem : ∀ read ∈ some, read ∈ readers.take 8 ++ readers.drop 9) :
    Unordered f found.flatten := by
  induction h with
  | nil => rfl
  | cons hread _ ih =>
    obtain ⟨hfirst, hrest⟩ := List.forall_mem_cons.mp hmem
    rw [Unordered, List.flatten_cons, List.flatMap_append, unordered_of_mem hfirst hread, ih hrest]
    rfl

/-- The operators of an object ask for an order if the object has a place to be near to. -/
theorem orders_ofObject (h : ofObject fields = .ok ops) :
    (fields.get? nearKey = none ∧ ops.flatMap (orders f) = []) ∨
    (fields.get? nearKey ≠ none ∧
      ∃ point, ops.flatMap (orders f) = [f.distanceTo point ++ Sql.text " ASC"]) := by
  obtain ⟨found, hfound, h⟩ := bind_eq_ok.mp h
  obtain rfl := pure_eq_ok.mp h
  have hall := mapM_eq_ok.mp hfound
  -- the readers before that of a place, it, and those after it
  have hbefore := unordered_flatten (f := f) (List.forall₂_take 8 hall)
    fun _ h => List.mem_append_left _ h
  have hrest := List.forall₂_drop 8 hall
  rw [show readers.drop 8 = readNear :: readers.drop 9 from rfl] at hrest
  obtain ⟨near, after, hnear, hafter, hdrop⟩ := List.forall₂_cons_left_iff.mp hrest
  have hlast := unordered_flatten (f := f) hafter fun _ h => List.mem_append_right _ h
  have hsplit : found.flatten.flatMap (orders f) = near.flatMap (orders f) := by
    rw [← List.take_append_drop 8 found, hdrop, List.flatten_append, List.flatMap_append, hbefore,
      List.flatten_cons, List.flatMap_append, hlast, List.nil_append, List.append_nil]
  rw [hsplit]
  exact orders_readNear hnear

end Operator

/-- The sort clauses that a constraint on a field asks for. -/
def Constraint.orders (f : FieldRef) : Constraint → List Sql
  | .operators list => list.flatMap (Operator.orders f)
  | _ => []

namespace Compiler

variable {c : Compiler} {f : FieldRef} {value : Json} {constraint : Constraint} {out : Compiled}
  {name : String} {query : Object}

/-- The sort clauses that a query asks for with the constraint of a field. -/
def orders (c : Compiler) (field : String × Json) : List Sql :=
  if c.asksNothing field.1 field.2 then []
  else match Constraint.ofJson field.2 with
    | .ok constraint => constraint.orders (c.fieldRef field.1)
    | .error _ => []

/-- Parts that are compiled one after another have the sort clauses of their operators, in this
order. -/
theorem sorts_concat {list : List Operator} {parts : List Compiled} {now : Timestamp}
    (h : List.Forall₂ (fun operator part => f.compileOperator now operator = .ok part) list parts) :
    (Compiled.concat parts).sorts = list.flatMap (Operator.orders f) := by
  induction h with
  | nil => rfl
  | cons hoperator _ ih =>
    rw [Compiled.concat_cons, Compiled.sorts_append, Operator.sorts_compile hoperator, ih,
      List.flatMap_cons]

/-- A constraint compiles to the sort clauses that it asks for. -/
theorem sorts_compileConstraint (h : c.compileConstraint f value constraint = .ok out) :
    out.sorts = constraint.orders f := by
  cases constraint with
  | null | text _ | number _ | flag _ =>
    obtain rfl := Except.ok.inj h
    rfl
  | operators list =>
    obtain ⟨parts, hparts, h⟩ := bind_eq_ok.mp h
    obtain rfl := pure_eq_ok.mp h
    exact sorts_concat (mapM_eq_ok.mp hparts)

/-- A field compiles to the sort clauses that the query asks for with it. -/
theorem sorts_compileField (h : c.compileField name value = .ok out) :
    out.sorts = c.orders (name, value) := by
  obtain ⟨hasks, rfl⟩ | ⟨hasks, _, constraint, hread, hcompile⟩ := compileField_eq_ok.mp h
  · simp [orders, hasks]
  · simp [orders, hasks, hread, sorts_compileConstraint hcompile]

/-- Fields that compile have together the sort clauses that are asked for with each. -/
theorem sorts_compileTo {fields : List (String × Json)} {parts : List Compiled}
    (h : c.CompileTo fields parts) : parts.flatMap Compiled.sorts = fields.flatMap c.orders := by
  induction h with
  | nil => rfl
  | cons hfield _ ih => rw [List.flatMap_cons, List.flatMap_cons, sorts_compileField hfield, ih]

/-- A query compiles to the sort clauses of its leaves. -/
theorem sorts_ofQuery {filter : Filter} (h : Filter.ofQuery c query = .ok filter) :
    filter.sorts = (leaves query).flatMap c.orders := by
  obtain ⟨compiled, hcompile, h⟩ := bind_eq_ok.mp h
  obtain rfl := pure_eq_ok.mp h
  obtain ⟨parts, hparts, _, hsorts⟩ := compileEntries_leaves hcompile
  exact hsorts.trans (sorts_compileTo hparts)

/-! ## Which queries ask for an order -/

/-- Whether a query asks for an order with the constraint of a field: the constraint has a place to
be near to. -/
def asksOrder (c : Compiler) (field : String × Json) : Bool :=
  !c.asksNothing field.1 field.2 && (field.2.get? Operator.nearKey).isSome

/-- What the order that a query asks for puts in quotes, one sort clause after another: the columns
of the fields that have a place to be near to, in the order in which they are met. -/
def orderings (c : Compiler) (query : Object) : List (List Quote) :=
  ((leaves query).filter c.asksOrder).map fun field => pathQuotes field.1

/-- A compiled field asks for no order, or for one clause: the distance of its column. -/
theorem orders_eq (h : c.compileField name value = .ok out) :
    (c.asksOrder (name, value) = false ∧ c.orders (name, value) = []) ∨
    (c.asksOrder (name, value) = true ∧ ∃ point, c.orders (name, value)
      = [(c.fieldRef name).distanceTo point ++ Sql.text " ASC"]) := by
  obtain ⟨hasks, rfl⟩ | ⟨hasks, _, constraint, hread, hcompile⟩ := compileField_eq_ok.mp h
  · exact Or.inl ⟨by simp [asksOrder, hasks], by simp [orders, hasks]⟩
  · have horders : c.orders (name, value) = constraint.orders (c.fieldRef name) := by
      simp [orders, hasks, hread]
    have hnear : c.asksOrder (name, value) = (value.get? Operator.nearKey).isSome := by
      simp [asksOrder, hasks]
    rw [horders, hnear]
    cases value with
    | obj fields =>
      obtain ⟨list, hlist, h⟩ := bind_eq_ok.mp hread
      obtain rfl := pure_eq_ok.mp h
      rcases Operator.orders_ofObject (f := c.fieldRef name) hlist with ⟨hget, hnil⟩ | ⟨hget, hone⟩
      · exact Or.inl ⟨by simpa [Json.get?] using hget, hnil⟩
      · exact Or.inr ⟨Option.isSome_iff_ne_none.mpr hget, hone⟩
    -- a bare value is compared for equality, which asks for no order
    | null | bool _ | int _ | double _ | str _ | arr _ =>
      obtain rfl := Except.ok.inj hread
      exact Or.inl ⟨rfl, rfl⟩

/-- The leaves of a compiled query are compiled. -/
theorem exists_compileField {filter : Filter} (h : Filter.ofQuery c query = .ok filter)
    {field : String × Json} (hfield : field ∈ leaves query) :
    ∃ out, c.compileField field.1 field.2 = .ok out := by
  obtain ⟨compiled, hcompile, _⟩ := bind_eq_ok.mp h
  obtain ⟨parts, hparts, _⟩ := compileEntries_leaves hcompile
  obtain ⟨out, _, hout⟩ := exists_right_of_mem hparts hfield
  exact ⟨out, hout⟩

variable {filter : Filter}

/-- A sort clause is the distance of the column of a leaf. -/
theorem exists_leaf_of_mem_sorts (h : Filter.ofQuery c query = .ok filter) {sort : Sql}
    (hs : sort ∈ filter.sorts) : ∃ field ∈ leaves query, c.asksOrder field = true ∧
      ∃ point, sort = (c.fieldRef field.1).distanceTo point ++ Sql.text " ASC" := by
  rw [sorts_ofQuery h] at hs
  obtain ⟨field, hfield, hs⟩ := List.mem_flatMap.mp hs
  obtain ⟨out, hout⟩ := exists_compileField h hfield
  rcases orders_eq hout with ⟨_, hnil⟩ | ⟨hasks, point, hone⟩
  · rw [hnil] at hs
    exact (List.not_mem_nil hs).elim
  · rw [hone, List.mem_singleton] at hs
    exact ⟨field, hfield, hasks, point, hs⟩

/-- There is no sort clause if no leaf asks for an order. -/
theorem sorts_eq_nil_iff (h : Filter.ofQuery c query = .ok filter) :
    filter.sorts = [] ↔ ∀ field ∈ leaves query, c.asksOrder field = false := by
  rw [sorts_ofQuery h, List.flatMap_eq_nil_iff]
  refine forall₂_congr ?_
  intro field hfield
  obtain ⟨out, hout⟩ := exists_compileField h hfield
  rcases orders_eq hout with ⟨hasks, hnil⟩ | ⟨hasks, point, hone⟩
  · simp [hasks, hnil]
  · simp [hasks, hone]

/-- The distance of the column of a field is read with the column in quotes. -/
theorem reads_order (c : Compiler) (name : String) (point : GeoPoint) :
    Reads ((c.fieldRef name).distanceTo point ++ Sql.text " ASC") (pathQuotes name) := by
  rw [← quotes_fieldRef c name]
  exact FieldRef.reads_distanceTo.before (joins_condition (by decide))

/-- The sort clauses belong to the fields that ask for an order, one to each. -/
theorem forall₂_orders {fields : List (String × Json)}
    (h : ∀ field ∈ fields, ∃ out, c.compileField field.1 field.2 = .ok out) :
    List.Forall₂ Reads (fields.flatMap c.orders)
      ((fields.filter c.asksOrder).map fun field => pathQuotes field.1) := by
  induction fields with
  | nil => exact .nil
  | cons field rest ih =>
    obtain ⟨⟨out, hout⟩, hrest⟩ := List.forall_mem_cons.mp h
    rw [List.flatMap_cons]
    rcases orders_eq hout with ⟨hasks, hnil⟩ | ⟨hasks, point, hone⟩
    · rw [List.filter_cons_of_neg (by simp [hasks]), hnil]
      exact ih hrest
    · rw [List.filter_cons_of_pos hasks, hone]
      exact .cons (reads_order c field.1 point) (ih hrest)

/-- Each sort clause of a query is read with its own column in quotes. -/
theorem reads_eachSort (h : Filter.ofQuery c query = .ok filter) :
    List.Forall₂ Reads filter.sorts (c.orderings query) := by
  rw [sorts_ofQuery h]
  exact forall₂_orders fun field hfield => exists_compileField h hfield

/-- Each sort clause binds two values. -/
theorem bindCount_of_mem_sorts (h : Filter.ofQuery c query = .ok filter) {sort : Sql}
    (hs : sort ∈ filter.sorts) : sort.bindCount = 2 := by
  obtain ⟨field, _, _, point, rfl⟩ := exists_leaf_of_mem_sorts h hs
  simp [FieldRef.distanceTo, GeoPoint.sql, Sql.bindCount]

/-- No order binds values just if no leaf asks for one. -/
theorem bindCount_sorts_eq_zero_iff (h : Filter.ofQuery c query = .ok filter) :
    Sql.bindCount filter.sorts.flatten = 0 ↔ ∀ field ∈ leaves query, c.asksOrder field = false := by
  rw [← sorts_eq_nil_iff h]
  have hall : ∀ sort ∈ filter.sorts, sort.bindCount = 2 := fun _ => bindCount_of_mem_sorts h
  cases hsorts : filter.sorts with
  | nil => exact iff_of_true rfl rfl
  | cons sort rest =>
    have hsort := hall sort (hsorts ▸ List.mem_cons_self)
    refine iff_of_false ?_ (List.cons_ne_nil _ _)
    rw [List.flatten_cons, Sql.bindCount_append]
    omega

/-- A field that asks for an order also asks for a condition. -/
theorem asserts_compileField (h : c.compileField name value = .ok out) : out.Asserts := by
  obtain ⟨hasks, rfl⟩ | ⟨hasks, _, constraint, hread, hcompile⟩ := compileField_eq_ok.mp h
  · exact Compiled.asserts_of_sorts_eq_nil rfl
  · cases constraint with
    | null | text _ | number _ | flag _ =>
      exact Compiled.asserts_of_sorts_eq_nil (sorts_compileConstraint hcompile)
    | operators list =>
      obtain ⟨parts, hparts, h⟩ := bind_eq_ok.mp hcompile
      obtain rfl := pure_eq_ok.mp h
      refine (Compiled.gathers_concat parts).asserts ?_
      intro part hpart
      obtain ⟨operator, _, hoperator⟩ := exists_left_of_mem (mapM_eq_ok.mp hparts) hpart
      exact Operator.asserts_compile hoperator

/-- A filter without a condition asks for no order. -/
theorem sorts_eq_nil_of_predicate_eq_none (h : Filter.ofQuery c query = .ok filter)
    (hnone : filter.predicate = none) : filter.sorts = [] := by
  obtain ⟨compiled, hcompile, h⟩ := bind_eq_ok.mp h
  obtain rfl := pure_eq_ok.mp h
  obtain ⟨parts, hparts, hgathers⟩ := compileEntries_leaves hcompile
  have hleaf : ∀ part ∈ parts, part.Asserts := by
    intro part hpart
    obtain ⟨field, _, hfield⟩ := exists_left_of_mem hparts hpart
    exact asserts_compileField hfield
  -- a sort clause would come with a condition, and the filter would have it
  by_contra hne
  apply hgathers.asserts hleaf hne
  rw [Compiled.clauses, Predicate.all?_eq_none_iff.mp hnone, List.flatMap_nil]

end Compiler

end ObjectStore
