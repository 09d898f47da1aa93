import ObjectStore.Proofs.Query.Meaning

/-!
# The operators of a field

A constraint may ask several things of one field, each by an operator. Every operator is compiled
by itself: it is refused, or it becomes one predicate, or it is passed over (`FieldRef.PassesOver`),
as `$nin` is on a path, and `$all` on a field that is no array unless it lists one value. The
predicates of a field stand in the order of its operators, and all of them must hold.

A field all of whose operators are passed over is refused. Beside another operator they are not
missed, so a field has one predicate for each of its operators just if none is passed over
(`expressesAll_iff`).
-/

namespace ObjectStore

open Result

namespace FieldRef

/-- An operator that asks nothing of a field. -/
def PassesOver (f : FieldRef) : Operator → Prop
  | .notIn _ => f.isPath = true
  | .containsAll values => f.isArray = false ∧ values.length ≠ 1
  | _ => False

instance (f : FieldRef) : DecidablePred f.PassesOver
  | .notIn _ => inferInstanceAs (Decidable (_ = _))
  | .containsAll _ => inferInstanceAs (Decidable (_ ∧ _))
  | .notEqual _ | .equal _ | .isIn _ | .isPresent _ | .containedBy _ | .matchesText _ | .near _ _
  | .inBox _ _ | .inSphere _ _ | .inPolygon _ | .intersects _ | .matchesPattern _ _ | .tagged _
  | .compare _ _ => inferInstanceAs (Decidable False)

/-- A predicate is what an operator asks of a field. -/
def Expresses (f : FieldRef) (now : Timestamp) (operator : Operator) (p : Predicate) : Prop :=
  ∃ sorts, f.compileOperator now operator = .ok ⟨[p], sorts⟩

/-- Some predicates are what some operators ask of a field, one for each and in their order. -/
def ExpressesAll (f : FieldRef) (now : Timestamp) : List Operator → List Predicate → Prop :=
  List.Forall₂ (f.Expresses now)

variable {f : FieldRef} {now : Timestamp} {operator : Operator} {operators : List Operator}
  {part : Compiled} {parts : List Compiled} {x : Result Predicate}

theorem exists_of_map_ofPredicate (h : x.map Compiled.ofPredicate = .ok part) :
    ∃ p, part = .ofPredicate p := by
  obtain ⟨p, -, rfl⟩ := map_eq_ok.mp h
  exact ⟨p, rfl⟩

/-- A list of values to be among becomes one predicate, on a path as elsewhere. -/
theorem exists_of_isIn {values : List Json} (h : f.isIn values = .ok part) :
    ∃ p, part = .ofPredicate p := by
  unfold isIn at h
  split at h
  · dsimp only [pathIsIn] at h
    split at h
    · cases h
    · exact ⟨_, (Except.ok.inj h).symm⟩
  · exact ⟨_, (Except.ok.inj h).symm⟩

theorem notIn_cases (f : FieldRef) (values : List Json) :
    (f.isPath = true ∧ f.notIn values = {}) ∨
      (f.isPath = false ∧ ∃ p, f.notIn values = .ofPredicate p) := by
  cases hpath : f.isPath with
  | true => exact .inl ⟨rfl, if_pos hpath⟩
  | false => exact .inr ⟨rfl, _, if_neg (by simp [hpath])⟩

/-- What is no array can hold all values of a list only if the list has one. -/
theorem holdsAll_cases {values : List Json} (h : f.holdsAll values = .ok part) :
    (f.PassesOver (.containsAll values) ∧ part = {}) ∨
      (¬ f.PassesOver (.containsAll values) ∧ ∃ p, part = .ofPredicate p) := by
  cases harray : f.isArray with
  | false =>
    match values with
    | [only] =>
      simp only [holdsAll, harray, Bool.not_false, if_true, Except.ok.injEq] at h
      exact .inr ⟨by simp [PassesOver], _, h.symm⟩
    | [] | first :: second :: rest =>
      simp only [holdsAll, harray, Bool.not_false, if_true, Except.ok.injEq] at h
      exact .inl ⟨by simp [PassesOver, harray], h.symm⟩
  | true =>
    refine .inr ⟨by simp [PassesOver, harray], ?_⟩
    simp only [holdsAll, harray, Bool.not_true, Bool.false_eq_true, if_false] at h
    split at h
    · exact ⟨_, (Except.ok.inj h).symm⟩
    · split at h
      · cases h
      · exact ⟨_, (Except.ok.inj h).symm⟩

/-- An operator that compiles is passed over, and then asks nothing, or it becomes one predicate. -/
theorem compileOperator_cases (h : f.compileOperator now operator = .ok part) :
    (f.PassesOver operator ∧ part = {}) ∨
      (¬ f.PassesOver operator ∧ ∃ p sorts, part = ⟨[p], sorts⟩) := by
  -- all operators but two are never passed over
  have hone (hkept : ¬ f.PassesOver operator) (hpart : ∃ p, part = .ofPredicate p) :
      (f.PassesOver operator ∧ part = {}) ∨
        (¬ f.PassesOver operator ∧ ∃ p sorts, part = ⟨[p], sorts⟩) := by
    obtain ⟨p, rfl⟩ := hpart
    exact .inr ⟨hkept, p, [], rfl⟩
  cases operator with
  | notEqual value => exact hone id (exists_of_map_ofPredicate h)
  | equal value => exact hone id (exists_of_map_ofPredicate h)
  | isIn values => exact hone id (exists_of_isIn h)
  | notIn values =>
    obtain rfl := Except.ok.inj h
    rcases f.notIn_cases values with ⟨hpath, hnothing⟩ | ⟨hpath, hpart⟩
    · exact .inl ⟨hpath, hnothing⟩
    · exact hone (by simp [PassesOver, hpath]) hpart
  | containsAll values =>
    rcases holdsAll_cases h with hnothing | ⟨hkept, hpart⟩
    · exact .inl hnothing
    · exact hone hkept hpart
  | isPresent expected => exact hone id ⟨_, (Except.ok.inj h).symm⟩
  | containedBy values => exact hone id ⟨_, (Except.ok.inj h).symm⟩
  | matchesText search => exact hone id ⟨_, (Except.ok.inj h).symm⟩
  | near point maxDistance => exact .inr ⟨id, _, _, (Except.ok.inj h).symm⟩
  | inBox bottomLeft topRight => exact hone id ⟨_, (Except.ok.inj h).symm⟩
  | inSphere point distance => exact hone id ⟨_, (Except.ok.inj h).symm⟩
  | inPolygon points => exact hone id ⟨_, (Except.ok.inj h).symm⟩
  | intersects point => exact hone id ⟨_, (Except.ok.inj h).symm⟩
  | matchesPattern pattern options => exact hone id ⟨_, (Except.ok.inj h).symm⟩
  | tagged value => exact hone id (exists_of_map_ofPredicate h)
  | compare comparator bound => exact hone id (exists_of_map_ofPredicate h)

/-- The operators of a field that are not passed over have one predicate each, in their order. -/
theorem expressesAll_kept
    (h : List.Forall₂ (fun operator part => f.compileOperator now operator = .ok part) operators
      parts) :
    f.ExpressesAll now (operators.filter fun operator => ¬ f.PassesOver operator)
      (parts.flatMap Compiled.predicates) := by
  induction h with
  | nil => exact .nil
  | @cons operator part operators parts hpart _ ih =>
    rcases compileOperator_cases hpart with ⟨hpassed, rfl⟩ | ⟨hkept, p, sorts, rfl⟩
    · rwa [List.filter_cons_of_neg (by simpa using hpassed)]
    · rw [List.filter_cons_of_pos (by simpa using hkept)]
      exact .cons ⟨sorts, hpart⟩ ih

/-- What is passed over has no predicate of its own. -/
theorem Expresses.not_passesOver {p : Predicate} (h : f.Expresses now operator p) :
    ¬ f.PassesOver operator := by
  obtain ⟨sorts, hcompiled⟩ := h
  rcases compileOperator_cases hcompiled with ⟨-, hnothing⟩ | ⟨hkept, -⟩
  · exact nomatch hnothing
  · exact hkept

/-- All operators have predicates of their own just if none is passed over. -/
theorem expressesAll_iff_of_kept {predicates : List Predicate}
    (h : f.ExpressesAll now (operators.filter fun operator => ¬ f.PassesOver operator) predicates) :
    f.ExpressesAll now operators predicates
      ↔ ∀ operator ∈ operators, ¬ f.PassesOver operator := by
  constructor
  · intro hall operator hoperator
    obtain ⟨p, -, hp⟩ := exists_right_of_mem hall hoperator
    exact hp.not_passesOver
  · intro hkept
    rwa [List.filter_eq_self.mpr fun operator hoperator => by simp [hkept operator hoperator]] at h

end FieldRef

namespace Compiler

variable {c : Compiler} {out : Compiled}

/-- A field compiles to what its operators compile to, which is something. -/
theorem compileField_operators {name : String} {value : Json} {operators : List Operator}
    (hasks : c.asksNothing name value = false)
    (hread : Constraint.ofJson value = .ok (.operators operators))
    (h : c.compileField name value = .ok out) :
    out.predicates ≠ [] ∧ ∃ parts, out = .concat parts ∧
      List.Forall₂ (fun operator part =>
        (c.fieldRef name).compileOperator c.now operator = .ok part) operators parts := by
  rcases compileField_eq_ok.mp h with ⟨htrue, -⟩ | ⟨-, hne, constraint, hconstraint, hcompiled⟩
  · exact absurd htrue (by simp [hasks])
  · obtain rfl := Except.ok.inj (hread.symm.trans hconstraint)
    obtain ⟨parts, hparts, hout⟩ := bind_eq_ok.mp hcompiled
    exact ⟨hne, parts, (pure_eq_ok.mp hout).symm, mapM_eq_ok.mp hparts⟩

/-- The condition of a query is that of the entries before a field, of the field itself and of the
entries after it. The field has a predicate for each of its operators that is not passed over, in
their order, and one at least. So it has one for each of its operators just if none is passed
over. -/
theorem expressesAll_iff (c : Compiler) (before after : Object) (name : String) (value : Json)
    (operators : List Operator) (filter : Filter) (hkey : Combinator.ofKey? name = none)
    (hasks : c.asksNothing name value = false)
    (hread : Constraint.ofJson value = .ok (.operators operators))
    (hfilter : Filter.ofQuery c (before ++ (name, value) :: after) = .ok filter) :
    ∃ earlier own later, c.compileEntries before = .ok earlier ∧ c.compileField name value = .ok own
      ∧ c.compileEntries after = .ok later
      ∧ filter.predicate
        = Predicate.all? (earlier.predicates ++ own.predicates ++ later.predicates)
      ∧ own.predicates ≠ []
      ∧ (c.fieldRef name).ExpressesAll c.now
        (operators.filter fun operator => ¬ (c.fieldRef name).PassesOver operator) own.predicates
      ∧ ((c.fieldRef name).ExpressesAll c.now operators own.predicates
        ↔ ∀ operator ∈ operators, ¬ (c.fieldRef name).PassesOver operator) := by
  obtain ⟨compiled, hcompiled, hf⟩ := bind_eq_ok.mp hfilter
  obtain rfl := pure_eq_ok.mp hf
  obtain ⟨earlier, _, hearlier, hrest, rfl⟩ := compileEntries_append_eq_ok.mp hcompiled
  rw [compileEntries_cons] at hrest
  obtain ⟨own, hown, hrest⟩ := bind_eq_ok.mp hrest
  obtain ⟨later, hlater, hrest⟩ := bind_eq_ok.mp hrest
  obtain rfl := pure_eq_ok.mp hrest
  have hfield : c.compileField name value = .ok own := by
    simpa only [compileEntry, hkey] using hown
  obtain ⟨hne, parts, rfl, hparts⟩ := compileField_operators hasks hread hfield
  have hkept := FieldRef.expressesAll_kept hparts
  refine ⟨earlier, _, later, hearlier, hfield, hlater, ?_, hne, hkept,
    FieldRef.expressesAll_iff_of_kept hkept⟩
  rw [Compiled.predicates_append, Compiled.predicates_append, List.append_assoc]

/-- People of an age. -/
def aged : Compiler :=
  .ofSchema ((Schema.ofClass "Person").withField "age" .number) false ⟨0, 0⟩

/-- Three things asked of one field. -/
def threefold : Json := .obj [("$exists", .bool true), ("$lt", .int 10), ("$ne", .int 3)]

/-- Three operators become three predicates. -/
theorem threefold_expressesAll :
    Combinator.ofKey? "age" = none ∧ aged.asksNothing "age" threefold = false
      ∧ Constraint.ofJson threefold
        = .ok (.operators [.notEqual (.int 3), .isPresent true, .compare .less (.int 10)])
      ∧ ∃ filter own, Filter.ofQuery aged ([] ++ ("age", threefold) :: []) = .ok filter
        ∧ filter.predicate = Predicate.all? own
        ∧ (aged.fieldRef "age").ExpressesAll aged.now
          [.notEqual (.int 3), .isPresent true, .compare .less (.int 10)] own := by
  have hkey : Combinator.ofKey? "age" = none := rfl
  have hasks : aged.asksNothing "age" threefold = false := rfl
  have hread : Constraint.ofJson threefold
      = .ok (.operators [.notEqual (.int 3), .isPresent true, .compare .less (.int 10)]) := rfl
  obtain ⟨filter, hfilter⟩ :
      ∃ filter, Filter.ofQuery aged ([] ++ ("age", threefold) :: []) = .ok filter := ⟨_, rfl⟩
  obtain ⟨earlier, own, later, hearlier, _, hlater, hpredicate, _, _, hiff⟩ :=
    expressesAll_iff aged [] [] "age" threefold _ filter hkey hasks hread hfilter
  obtain rfl := Except.ok.inj hearlier
  obtain rfl := Except.ok.inj hlater
  have hall := hiff.mpr (by simp [FieldRef.PassesOver])
  exact ⟨hkey, hasks, hread, filter, _, hfilter, by simpa using hpredicate, hall⟩

/-- To hold two values and to be greater than a third one. -/
def bothAndGreater : Json := .obj [("$all", .arr [.int 1, .int 2]), ("$gt", .int 3)]

/-- Of two operators on a number, `$all` of two values disappears beside the bound. -/
theorem allOfTwo_disappears :
    Constraint.ofJson bothAndGreater
        = .ok (.operators [.containsAll [.int 1, .int 2], .compare .greater (.int 3)])
      ∧ aged.asksNothing "age" bothAndGreater = false
      ∧ ∃ own, aged.compileField "age" bothAndGreater = .ok own
        ∧ own.predicates = [(aged.fieldRef "age").compareValue ">" (.int 3)]
        ∧ ¬ (aged.fieldRef "age").ExpressesAll aged.now
          [.containsAll [.int 1, .int 2], .compare .greater (.int 3)] own.predicates := by
  refine ⟨rfl, rfl, _, rfl, rfl, ?_⟩
  intro hall
  exact absurd (List.Forall₂.length_eq hall) (by decide)

end Compiler

end ObjectStore
