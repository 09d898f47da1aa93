import ObjectStore.Proofs.Query.Arrays
import ObjectStore.Proofs.Query.Readers
import ObjectStore.Proofs.Relation.Sequences

/-!
# Object ids merged into what was asked before

A query that is narrowed to some ids, or away from some, should select no row that it did not select
before. The list of ids takes the place of the list that the query had under the same operator, so
what counts is whether the new list says all that the old one said.

* A list of allowed ids is an intersection with the texts of the old list, so nothing is lost.
* A list of excluded ids is joined with the texts of the old one only. What else was excluded, by
  lists within the list, null or numbers, is lost (`lostItems`).
* A constraint that is neither a text nor operators is replaced as a whole.
-/

namespace ObjectStore.ObjectIds

open Compiler Engine

variable {c : Compiler} {f : FieldRef} {query fields : Object} {value : Json} {step : Narrowing}
  {held : Scalar} {rest : Valuation} {ids : List String} {values : List Json} {key : String}

/-! ## What a list says -/

/-- The list that ids are merged into. -/
def Narrowing.kind : Narrowing → ListKind
  | .allow _ => .isIn
  | .exclude _ => .notIn

/-- The ids of the list after the merge. -/
def Narrowing.list (query : Object) : Narrowing → List String
  | .allow ids => intersect (allowed query ++ [ids])
  | .exclude ids => (excluded query ++ ids).eraseDups

theorem get?_apply (query : Object) (step : Narrowing) :
    (step.apply query).get? objectIdField
      = some (.obj ((operators query).insert step.kind.key (.ofStrings (step.list query)))) := by
  cases step <;> exact get?_withOperator ..

/-- Values that are excluded beside texts. -/
def lostItems (value : Json) : List Json :=
  match value.get? "$nin" with
  | some (.arr values) => FieldRef.flatten (values.filter fun value => value.str?.isNone)
  | _ => []

/-- A row is selected after ids were merged only because something was lost. -/
def Forgets (c : Compiler) (value : Json) (held : Scalar) : Narrowing → Prop
  | .allow _ => False
  | .exclude _ => c.asksNothing objectIdField value = false
    ∧ ((c.fieldRef objectIdField).EqualsOneOf held (lostItems value)
      ∨ held = none ∧ lostItems value ≠ [])

theorem not_forgets (h : lostItems value = []) (step : Narrowing) :
    ¬ Forgets c value held step := by
  cases step with
  | allow ids => exact id
  | exclude ids =>
    rw [Forgets, h]
    rintro ⟨-, ⟨_, _, _, hitem, _⟩ | ⟨_, hne⟩⟩
    · exact List.not_mem_nil hitem
    · exact hne rfl

theorem equalsOneOf_mono {values others : List Json} (h : f.EqualsOneOf held values)
    (hsub : values ⊆ others) : f.EqualsOneOf held others := by
  obtain ⟨equals, rfl, value, hvalue, hrest⟩ := h
  exact ⟨equals, rfl, value, hsub hvalue, hrest⟩

/-- The members of a list are its texts, and what its other items come to. -/
theorem mem_flatten_iff : value ∈ FieldRef.flatten values ↔
    value ∈ (values.filterMap Json.str?).map .str
      ∨ value ∈ FieldRef.flatten (values.filter fun item => item.str?.isNone) := by
  induction values with
  | nil => simp [FieldRef.flatten]
  | cons item rest ih =>
    rw [FieldRef.flatten] at ih ⊢
    cases item with
    | str s =>
      rw [List.flatMap_cons, List.mem_append, ih]
      simp [Json.str?, FieldRef.flatten, or_assoc]
    | _ =>
      rw [List.flatMap_cons, List.mem_append, ih]
      simp [Json.str?, FieldRef.flatten, or_left_comm]

/-- What is looked up among the operators was written for the id, `$eq` apart. -/
theorem get?_of_operators (hkey : key ≠ "$eq") (h : (operators query).get? key = some value) :
    (query.get? objectIdField).bind (·.get? key) = some value := by
  unfold operators at h
  split at h
  next => simp [Dict.get?, hkey.symm] at h
  next hget =>
    rw [hget]
    exact h
  next => cases h

theorem accepts_of_allow (hin : (operators query).get? "$in" = some (.arr values))
    (h : ListKind.isIn.Accepts f held ((intersect (allowed query ++ [ids])).map .str)) :
    ListKind.isIn.Accepts f held values := by
  have hallowed : values.filterMap Json.str? ∈ allowed query := by
    refine List.mem_append_right _ (Option.mem_toList.mpr ?_)
    exact congrArg texts? (get?_of_operators (by decide) hin)
  obtain hequals | ⟨-, hnull⟩ := h
  · refine .inl (equalsOneOf_mono hequals ?_)
    intro value hvalue
    rw [Query.flatten_strings] at hvalue
    obtain ⟨id, hid, rfl⟩ := List.mem_map.mp hvalue
    have hlist := (mem_intersect.mp hid).2 _ (List.mem_append_left _ hallowed)
    exact mem_flatten_iff.mpr (.inl (List.mem_map_of_mem hlist))
  · rw [Query.flatten_strings] at hnull
    simp [Json.isNull] at hnull

theorem accepts_iff_of_exclude (hin : (operators query).get? "$nin" = some (.arr values))
    (h : ListKind.notIn.Accepts f held ((excluded query ++ ids).eraseDups.map .str)) :
    ListKind.notIn.Accepts f held values ↔
      ¬ (f.EqualsOneOf held (FieldRef.flatten (values.filter fun item => item.str?.isNone))
        ∨ held = none ∧ FieldRef.flatten (values.filter fun item => item.str?.isNone) ≠ []) := by
  have hexcluded : excluded query = values.filterMap Json.str? := by
    rw [excluded, get?_of_operators (by decide) hin]
    rfl
  have hkept {item : Json} (hitem : item ∈ (values.filterMap Json.str?).map Json.str) :
      item ∈ (excluded query ++ ids).eraseDups.map Json.str := by
    obtain ⟨id, hid, rfl⟩ := List.mem_map.mp hitem
    exact List.mem_map_of_mem (List.mem_eraseDups.mpr (List.mem_append_left _ (hexcluded ▸ hid)))
  obtain ⟨hdiffers, hnone⟩ := h
  rw [Query.flatten_strings] at hdiffers hnone
  have hequals : f.EqualsOneOf held (FieldRef.flatten values) ↔
      f.EqualsOneOf held (FieldRef.flatten (values.filter fun item => item.str?.isNone)) := by
    constructor
    · rintro ⟨equals, rfl, item, hitem, hequal⟩
      obtain htext | hlost := mem_flatten_iff.mp hitem
      · exact absurd ⟨equals, rfl, item, hkept htext, hequal⟩ hdiffers
      · exact ⟨equals, rfl, item, hlost, hequal⟩
    · exact fun h => equalsOneOf_mono h fun item hitem => mem_flatten_iff.mpr (.inr hitem)
  have hempty (hheld : held = none) : FieldRef.flatten values = [] ↔
      FieldRef.flatten (values.filter fun item => item.str?.isNone) = [] := by
    rw [hnone hheld] at hkept
    rw [List.eq_nil_iff_forall_not_mem, List.eq_nil_iff_forall_not_mem]
    refine forall_congr' fun item => not_congr ?_
    -- nothing is excluded, so no text is among the values
    rw [mem_flatten_iff, or_iff_right]
    intro hitem
    exact List.not_mem_nil (hkept hitem)
  rw [ListKind.Accepts, hequals, not_or, not_and_not_right]
  exact and_congr_right fun _ => forall_congr' hempty

/-! ## Rows -/

/-- Rows that a constraint on the id selects are selected by another one. -/
def IsNarrower (c : Compiler) (after before : Json) : Prop :=
  ∀ held rest, c.AdmitsEntry (truthAt objectIdField held rest) (objectIdField, after) →
    c.AdmitsEntry (truthAt objectIdField held rest) (objectIdField, before)

theorem admitsEntry_of_asksNothing {v : Valuation}
    (hasks : c.asksNothing objectIdField value = true) :
    c.AdmitsEntry v (objectIdField, value) :=
  ⟨{}, compileField_eq_ok.mpr (.inl ⟨hasks, rfl⟩), by simp [Compiled.Holds]⟩

/-- Where the old list is known, what was lost is what tells the two lists apart. -/
theorem accepts_iff_not_forgets
    (hasks : c.asksNothing objectIdField (.obj (operators query)) = false) (step : Narrowing)
    (h : step.kind.Accepts (c.fieldRef objectIdField) held ((step.list query).map .str)) :
    (∀ values, (operators query).get? step.kind.key = some (.arr values) →
        step.kind.Accepts (c.fieldRef objectIdField) held values)
      ↔ ¬ Forgets c (.obj (operators query)) held step := by
  cases step with
  | allow ids => exact iff_of_true (fun values hvalues => accepts_of_allow hvalues h) id
  | exclude ids =>
    by_cases hlist : ∃ values, (operators query).get? "$nin" = some (.arr values)
    · obtain ⟨values, hvalues⟩ := hlist
      have hlost : lostItems (.obj (operators query))
          = FieldRef.flatten (values.filter fun item => item.str?.isNone) := by
        simp [lostItems, Json.get?, hvalues]
      rw [Forgets, and_iff_right hasks, hlost, ← accepts_iff_of_exclude hvalues h]
      constructor
      · exact fun hall => hall values hvalues
      · intro haccepts others hothers
        obtain rfl := Json.arr.inj (Option.some.inj (hvalues.symm.trans hothers))
        exact haccepts
    · have hlost : lostItems (.obj (operators query)) = [] := by
        unfold lostItems
        split
        next values hvalues => exact absurd ⟨values, hvalues⟩ hlist
        next => rfl
      exact iff_of_true (fun values hvalues => absurd ⟨values, hvalues⟩ hlist)
        (not_forgets hlost (.exclude ids))

section Single

variable (harray : (c.fieldRef objectIdField).isArray = false)
include harray

/-- Merged into operators, a list forgets at most what was lost. -/
theorem admitsEntry_operators_iff
    (hcompiles : c.CompilesEntry (objectIdField, .obj (operators query))) (step : Narrowing) :
    c.CompilesEntry (objectIdField,
        .obj ((operators query).insert step.kind.key (.ofStrings (step.list query))))
      ∧ ∀ held rest, c.AdmitsEntry (truthAt objectIdField held rest) (objectIdField,
          .obj ((operators query).insert step.kind.key (.ofStrings (step.list query)))) →
        (c.AdmitsEntry (truthAt objectIdField held rest) (objectIdField, .obj (operators query))
          ↔ ¬ Forgets c (.obj (operators query)) held step) := by
  cases hasks : c.asksNothing objectIdField (.obj (operators query)) with
  | true =>
    have hmerged (v : Valuation) := admitsEntry_of_asksNothing (v := v)
      ((step.kind.asksNothing_insert (operators query) (.ofStrings (step.list query))).trans hasks)
    refine ⟨(hmerged fun _ => none).imp fun _ => And.left, ?_⟩
    intro held rest _
    refine iff_of_true (admitsEntry_of_asksNothing hasks) ?_
    cases step with
    | allow ids => exact id
    | exclude ids => exact fun hforgets => Bool.false_ne_true (hforgets.1.symm.trans hasks)
  | false =>
    obtain ⟨hmerged, hadmits⟩ := ListKind.insert_list rfl (by decide) harray hasks hcompiles
      step.kind ((step.list query).map .str)
    refine ⟨hmerged, ?_⟩
    intro held rest h
    obtain ⟨hlist, hothers⟩ := (hadmits held rest).mp h
    rw [ListKind.admitsEntry_iff rfl (by decide) harray hasks hcompiles step.kind,
      and_iff_left hothers]
    exact accepts_iff_not_forgets hasks step hlist

end Single

/-! ## Texts -/

/-- Case is ignored in the names and addresses of users only. -/
theorem ignoresCaseOf_id (c : Compiler) : c.ignoresCaseOf objectIdField = false := by
  simp [Compiler.ignoresCaseOf, objectIdField]

/-- A bare text asks what it asks as an operator. -/
theorem compileEntry_text (c : Compiler) (s : String) : c.compileEntry (objectIdField, .str s)
    = c.compileEntry (objectIdField, .obj [("$eq", .str s)]) := by
  have hbare : c.compileField objectIdField (.str s)
      = c.compileField objectIdField (.obj [("$eq", .str s)]) :=
    compileField_bare rfl rfl (by decide) (ignoresCaseOf_id c)
  exact hbare

/-- A constraint that gives way to operators: a text, or operators already. -/
def IsMergeable (value : Json) : Prop := value.str?.isSome = true ∨ value.isObject = true

theorem IsMergeable.compileEntry (hget : query.get? objectIdField = some value)
    (h : IsMergeable value) :
    c.compileEntry (objectIdField, value)
      = c.compileEntry (objectIdField, .obj (operators query)) := by
  rw [operators, hget]
  cases value with
  | str s => exact compileEntry_text c s
  | obj fields => rfl
  | _ => rcases h with h | h <;> cases h

theorem IsMergeable.forgets_iff (hget : query.get? objectIdField = some value)
    (h : IsMergeable value) (step : Narrowing) :
    Forgets c value held step ↔ Forgets c (.obj (operators query)) held step := by
  rw [operators, hget]
  cases value with
  | str s =>
    cases step with
    | allow ids => exact Iff.rfl
    | exclude ids =>
      rw [Forgets, Forgets, asksNothing_eq_false rfl, asksNothing_eq_false rfl]
      exact Iff.rfl
  | obj fields => exact Iff.rfl
  | _ => rcases h with h | h <;> cases h

/-! ## Other values -/

/-- What compiles and is no text and no operators is null, a flag or a number. -/
theorem isScalar_of_not_isMergeable (h : ¬ IsMergeable value)
    (hcompiles : c.CompilesEntry (objectIdField, value)) : value.isScalar = true := by
  cases value with
  | arr items =>
    obtain ⟨out, hout⟩ := hcompiles
    obtain ⟨hasks, -⟩ | ⟨-, hne, constraint, hread, hcompiled⟩ := compileField_eq_ok.mp hout
    · cases (asksNothing_eq_false rfl).symm.trans hasks
    · obtain rfl := Except.ok.inj hread
      obtain rfl := Except.ok.inj hcompiled
      exact absurd rfl hne
  | obj fields => exact absurd (.inr rfl) h
  | _ => rfl

/-- Equality is no comparison that a list or a null is part of. -/
theorem read?_equals (column name : String) (operand : Sql) :
    ScalarTest.read? column (Sql.name name ++ Sql.text (" " ++ "=" ++ " ") ++ operand) = none := by
  cases operand <;> rfl

theorem admitsEntry_ofPredicate_iff {v : Valuation} {p : Predicate}
    (h : c.compileField objectIdField value = .ok (.ofPredicate p)) :
    c.AdmitsEntry v (objectIdField, value) ↔ p.truth v = some true :=
  List.forall_mem_singleton.symm.trans (admits_iff.symm.trans (admits_field_iff rfl h))

/-- Null selects no row that has an id, and a flag or a number none with an id that does not equal
it. -/
theorem not_admitsEntry_scalar (hscalar : value.isScalar = true) (htext : ¬ IsMergeable value)
    (equals : Sql → Bool) :
    ¬ c.AdmitsEntry (truthAt objectIdField (some equals) fun _ => some false)
      (objectIdField, value) := by
  have hpath : Text.contains objectIdField "." = false := by decide
  have hisPath : (c.fieldRef objectIdField).isPath = false := hpath
  have hequals (operand : Sql) : ((c.fieldRef objectIdField).compareWith "=" operand).truth
      (truthAt objectIdField (some equals) fun _ => some false) = some false := by
    rw [FieldRef.compareWith, FieldRef.column, hisPath, if_neg Bool.false_ne_true,
      Predicate.truth_clause, truthAt, read?_equals]
  have hisNull : (c.fieldRef objectIdField).isNull.truth
      (truthAt objectIdField (some equals) fun _ => some false) = some false :=
    FieldRef.truth_isNull_at (f := c.fieldRef objectIdField) hisPath
  cases hflag : value.bool? with
  | some flag =>
    obtain rfl : value = .bool flag := by
      cases value <;> first | exact congrArg Json.bool (Option.some.inj hflag) | cases hflag
    rw [admitsEntry_ofPredicate_iff (compileField_flag hpath flag), hequals]
    decide
  | none =>
    rw [admitsEntry_ofPredicate_iff
      ((compileField_bare hscalar hflag hpath (ignoresCaseOf_id c)).trans
        (compileField_spelled hscalar hpath))]
    split_ifs
    · rw [hisNull]
      decide
    · rw [hequals]
      decide

section Replaced

variable (harray : (c.fieldRef objectIdField).isArray = false)
include harray

theorem isSingle_id : c.IsSingle objectIdField := ⟨rfl, by decide, harray⟩

/-- Where there were no operators, the list is all that is asked. -/
theorem admitsEntry_list_iff (kind : ListKind) (values : List Json) :
    c.AdmitsEntry (truthAt objectIdField held rest) (objectIdField, .obj [(kind.key, .arr values)])
      ↔ kind.Accepts (c.fieldRef objectIdField) held values := by
  cases kind with
  | isIn =>
    exact List.forall_mem_singleton.symm.trans
      (admits_iff.symm.trans (admits_oneOf_iff (isSingle_id harray)))
  | notIn =>
    exact List.forall_mem_singleton.symm.trans
      (admits_iff.symm.trans (admits_noneOf_iff (isSingle_id harray)))

theorem compilesEntry_list (kind : ListKind) (values : List Json) :
    c.CompilesEntry (objectIdField, .obj [(kind.key, .arr values)]) := by
  cases kind with
  | isIn => exact ⟨_, compileField_oneOf (isSingle_id harray) values⟩
  | notIn => exact ⟨_, compileField_noneOf (isSingle_id harray) values⟩

/-- In place of null, a flag or a number, a list of ids selects rows that these did not select,
unless it allows no id. -/
theorem isNarrower_list_iff (hget : query.get? objectIdField = some value)
    (hscalar : value.isScalar = true) (htext : ¬ IsMergeable value) (step : Narrowing) :
    IsNarrower c (.obj [(step.kind.key, .ofStrings (step.list query))]) value
      ↔ step = .allow [] := by
  have hlist (ids : List String) (id : String) :
      id ∈ intersect (allowed query ++ [ids]) ↔ id ∈ ids := by
    have hallowed : allowed query = [] := by
      have hstr : value.str? = none := Option.not_isSome_iff_eq_none.mp fun h => htext (.inl h)
      simp [allowed, hget, hstr, Json.get?_scalar hscalar, texts?]
    simp [hallowed, mem_intersect]
  have hadmits (held : Scalar) (rest : Valuation) :
      c.AdmitsEntry (truthAt objectIdField held rest)
          (objectIdField, .obj [(step.kind.key, .ofStrings (step.list query))])
        ↔ step.kind.Accepts (c.fieldRef objectIdField) held ((step.list query).map .str) :=
    admitsEntry_list_iff harray step.kind _
  constructor
  · intro hnarrower
    by_contra hstep
    suffices haccepts : ∃ equals, step.kind.Accepts (c.fieldRef objectIdField) (some equals)
        ((step.list query).map .str) by
      obtain ⟨equals, haccepts⟩ := haccepts
      exact not_admitsEntry_scalar hscalar htext equals
        (hnarrower _ _ ((hadmits _ _).mpr haccepts))
    cases step with
    | allow ids =>
      obtain ⟨id, hid⟩ := List.exists_mem_of_ne_nil ids fun hnil => hstep (hnil ▸ rfl)
      refine ⟨fun _ => true, .inl ⟨_, rfl, .str id, ?_, rfl, rfl⟩⟩
      rw [Query.flatten_strings]
      exact List.mem_map_of_mem ((hlist ids id).mpr hid)
    | exclude ids =>
      refine ⟨fun _ => false, ?_, fun hnone => absurd hnone (Option.some_ne_none _)⟩
      rintro ⟨equals, hheld, item, -, -, hequals⟩
      obtain rfl := Option.some.inj hheld
      exact Bool.false_ne_true hequals
  · rintro rfl held rest hmerged
    have hnone : intersect (allowed query ++ [[]]) = [] :=
      List.eq_nil_iff_forall_not_mem.mpr fun id hid => List.not_mem_nil ((hlist [] id).mp hid)
    obtain ⟨_, _, item, hitem, -, -⟩ | ⟨-, hnull⟩ := (hadmits held rest).mp hmerged
    · rw [Narrowing.list, hnone] at hitem
      exact absurd hitem List.not_mem_nil
    · rw [Narrowing.list, hnone] at hnull
      cases hnull

end Replaced

/-- **A constraint on the id that compiles still does after ids were merged into it. If it was a
text or operators, the rows that are selected and were not before are those that something lost had
excluded, so where nothing is lost the merged constraint is narrower. If it was anything else, what
takes its place is narrower only if no id is allowed.** -/
theorem isNarrower_apply (c : Compiler) (query : Object) (value : Json) (step : Narrowing)
    (harray : (c.fieldRef objectIdField).isArray = false)
    (hget : query.get? objectIdField = some value)
    (hcompiles : c.CompilesEntry (objectIdField, value)) :
    ∃ merged, (step.apply query).get? objectIdField = some merged
      ∧ c.CompilesEntry (objectIdField, merged)
      ∧ (IsMergeable value → ∀ held rest,
        c.AdmitsEntry (truthAt objectIdField held rest) (objectIdField, merged) →
          (c.AdmitsEntry (truthAt objectIdField held rest) (objectIdField, value)
            ↔ ¬ Forgets c value held step))
      ∧ (IsMergeable value → lostItems value = [] → IsNarrower c merged value)
      ∧ (¬ IsMergeable value → (IsNarrower c merged value ↔ step = .allow [])) := by
  refine ⟨_, get?_apply query step, ?_⟩
  by_cases hmergeable : IsMergeable value
  · have hsame := hmergeable.compileEntry (c := c) hget
    have hrows : c.CompilesEntry (objectIdField, .obj (operators query)) := by
      rwa [CompilesEntry, ← hsame]
    obtain ⟨hmerged, hforgets⟩ := admitsEntry_operators_iff harray hrows step
    have hexact (held : Scalar) (rest : Valuation)
        (h : c.AdmitsEntry (truthAt objectIdField held rest) (objectIdField,
          .obj ((operators query).insert step.kind.key (.ofStrings (step.list query))))) :
        c.AdmitsEntry (truthAt objectIdField held rest) (objectIdField, value)
          ↔ ¬ Forgets c value held step := by
      rw [hmergeable.forgets_iff hget, ← hforgets held rest h, AdmitsEntry, AdmitsEntry, hsame]
    exact ⟨hmerged, fun _ => hexact,
      fun _ hlost held rest h => (hexact held rest h).mpr (not_forgets hlost step),
      absurd hmergeable⟩
  · have hscalar := isScalar_of_not_isMergeable hmergeable hcompiles
    have hnone : operators query = [] := by
      rw [operators, hget]
      cases value with
      | str s => exact absurd (.inl rfl) hmergeable
      | obj fields => exact absurd (.inr rfl) hmergeable
      | _ => rfl
    rw [hnone]
    exact ⟨compilesEntry_list harray step.kind _, (absurd · hmergeable), (absurd · hmergeable),
      fun _ => isNarrower_list_iff harray hget hscalar hmergeable step⟩

/-- Posts. -/
def plainPosts : Compiler := .ofSchema (Schema.ofClass "Post") false ⟨0, 0⟩

/-- A row with an id: it equals the text of the id. -/
def rowOf (id : String) : Scalar := some fun
  | [.bind (.text (some s))] => s == id
  | _ => false

/-- Posts that are one of two and not a third. -/
def twoPosts : Json := .obj [("$in", .ofStrings ["a", "b"]), ("$nin", .ofStrings ["c"])]

/-- Away from one more post, two posts select no other one. -/
theorem twoPosts_isNarrower :
    (plainPosts.fieldRef objectIdField).isArray = false
      ∧ Dict.get? [(objectIdField, twoPosts)] objectIdField = some twoPosts
      ∧ plainPosts.CompilesEntry (objectIdField, twoPosts)
      ∧ ∃ merged, (Narrowing.apply [(objectIdField, twoPosts)] (.exclude ["b"])).get? objectIdField
          = some merged ∧ IsNarrower plainPosts merged twoPosts := by
  have hcompiles : plainPosts.CompilesEntry (objectIdField, twoPosts) := ⟨_, rfl⟩
  obtain ⟨merged, hget, -, -, hnarrower, -⟩ := isNarrower_apply plainPosts
    [(objectIdField, twoPosts)] twoPosts (.exclude ["b"]) rfl rfl hcompiles
  exact ⟨rfl, rfl, hcompiles, merged, hget, hnarrower (.inr rfl) rfl⟩

/-- A row of posts is selected after ids were merged into a constraint on the id, and was not
before. -/
def Widens (before : Json) (step : Narrowing) (row : Scalar) : Prop :=
  ∃ merged, (step.apply [(objectIdField, before)]).get? objectIdField = some merged
    ∧ plainPosts.AdmitsEntry (truthAt objectIdField row fun _ => some false) (objectIdField, merged)
    ∧ ¬ plainPosts.AdmitsEntry (truthAt objectIdField row fun _ => some false)
      (objectIdField, before)

/-- A post that was excluded in an inner list is selected after another one was excluded too, and a
post that has an id is selected after ids were allowed in place of null. -/
theorem innerList_and_null_widen :
    Widens (.obj [("$nin", .arr [.arr [.str "a"]])]) (.exclude ["b"]) (rowOf "a")
      ∧ Widens .null (.allow ["a"]) (rowOf "a") := by
  constructor
  · refine ⟨_, get?_apply _ _, ?_, ?_⟩
    · refine (admitsEntry_list_iff rfl .notIn [.str "b"]).mpr ⟨?_, fun hnone =>
        absurd hnone (Option.some_ne_none _)⟩
      rintro ⟨equals, hheld, item, hitem, -, hequals⟩
      obtain rfl := Option.some.inj hheld
      obtain rfl := List.mem_singleton.mp hitem
      exact absurd hequals (by decide)
    · refine mt (admitsEntry_list_iff rfl .notIn [.arr [.str "a"]]).mp fun h => h.1 ?_
      exact ⟨_, rfl, .str "a", List.mem_cons_self, rfl, by decide⟩
  · have hreplaced : ¬ IsMergeable .null := by simp [IsMergeable, Json.str?, Json.isObject]
    refine ⟨_, get?_apply _ _, ?_, not_admitsEntry_scalar rfl hreplaced _⟩
    refine (admitsEntry_list_iff rfl .isIn [.str "a"]).mpr (.inl ?_)
    exact ⟨_, rfl, .str "a", List.mem_cons_self, rfl, by decide⟩

end ObjectStore.ObjectIds
