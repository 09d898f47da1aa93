import Mathlib.Data.List.Flatten
import ObjectStore.Proofs.Dict
import ObjectStore.Proofs.Query.Membership

/-!
# Operators, reader by reader

The operators on a field are found by readers, one after another, and each reader looks at members
of its own. So operators that compile admit what the operators of each reader admit
(`admitsEntry_object_iff`), and a list that is written under one key changes what one reader finds:
what all others ask for stays (`asked_insert`).
-/

namespace ObjectStore

open Result

theorem OperandFault.demand_eq_ok {α : Type} {fault : OperandFault} {x : Option α} {a : α} :
    fault.demand x = .ok a ↔ x = some a := by
  cases x <;> simp [demand]

namespace Compiled

variable {v : Valuation} {parts : List Compiled}

theorem predicates_concat (parts : List Compiled) :
    (concat parts).predicates = parts.flatMap predicates := rfl

theorem concat_append (a b : List Compiled) : concat (a ++ b) = concat a ++ concat b := by
  rw [concat, List.flatMap_append, List.flatMap_append]
  rfl

/-- Parts together hold if each of them holds. -/
theorem holds_concat : (concat parts).Holds v ↔ ∀ part ∈ parts, part.Holds v := by
  simp only [Holds, predicates_concat, List.mem_flatMap]
  constructor
  · intro h part hpart p hp
    exact h p ⟨part, hpart, hp⟩
  · rintro h p ⟨part, hpart, hp⟩
    exact h part hpart p hp

end Compiled

namespace Compiler

/-- A reader of operators. -/
abbrev Reader := Object → Result (List Operator)

/-- What the operators that a reader finds ask of a field. -/
def asked (c : Compiler) (f : FieldRef) (fields : Object) (read : Reader) : Result Compiled := do
  pure (.concat (← (← read fields).mapM (f.compileOperator c.now)))

variable {c : Compiler} {f : FieldRef} {fields : Object} {readers : List Reader} {read : Reader}
  {name : String} {out part : Compiled} {v : Valuation}

/-- What a reader finds is compiled operator by operator and put together. -/
theorem asked_eq_ok : c.asked f fields read = .ok part ↔ ∃ operators parts,
    read fields = .ok operators ∧ operators.mapM (f.compileOperator c.now) = .ok parts
      ∧ part = .concat parts := by
  simp only [asked, bind_eq_ok, pure_eq_ok]
  constructor
  · rintro ⟨operators, hread, parts, hparts, rfl⟩
    exact ⟨operators, parts, hread, hparts, rfl⟩
  · rintro ⟨operators, parts, hread, hparts, rfl⟩
    exact ⟨operators, hread, parts, hparts, rfl⟩

/-- The operators of some readers together ask for what those of each ask for. -/
theorem mapM_readers_eq_ok :
    (∃ found parts, readers.mapM (fun read => read fields) = .ok found
        ∧ found.flatten.mapM (f.compileOperator c.now) = .ok parts ∧ out = .concat parts)
      ↔ ∃ parts, readers.mapM (c.asked f fields) = .ok parts ∧ out = .concat parts := by
  induction readers generalizing out with
  | nil => simp [pure_eq_ok, List.mapM_nil]
  | cons read readers ih =>
    simp only [List.mapM_cons, bind_eq_ok, pure_eq_ok, asked_eq_ok]
    constructor
    · rintro ⟨_, parts, ⟨operators, hread, found, hfound, rfl⟩, hparts, rfl⟩
      rw [List.flatten_cons, List.mapM_append] at hparts
      obtain ⟨first, hfirst, hparts⟩ := bind_eq_ok.mp hparts
      obtain ⟨others, hothers, hparts⟩ := bind_eq_ok.mp hparts
      obtain rfl := pure_eq_ok.mp hparts
      obtain ⟨rest, hrest, hout⟩ := ih.mp ⟨found, others, hfound, hothers, rfl⟩
      refine ⟨_, ⟨_, ⟨operators, first, hread, hfirst, rfl⟩, rest, hrest, rfl⟩, ?_⟩
      rw [Compiled.concat_append, hout, Compiled.concat_cons]
    · rintro ⟨_, ⟨_, ⟨operators, first, hread, hfirst, rfl⟩, rest, hrest, rfl⟩, rfl⟩
      obtain ⟨found, others, hfound, hothers, hout⟩ := ih.mpr ⟨rest, hrest, rfl⟩
      refine ⟨_, first ++ others, ⟨operators, hread, found, hfound, rfl⟩, ?_, ?_⟩
      · rw [List.flatten_cons, List.mapM_append, hfirst]
        exact bind_eq_ok.mpr ⟨first, rfl, bind_eq_ok.mpr ⟨others, hothers, rfl⟩⟩
      · rw [Compiled.concat_append, ← hout, Compiled.concat_cons]

/-- A field compiles to what its operators ask for, reader by reader. -/
theorem compileField_object_eq_ok (hasks : c.asksNothing name (.obj fields) = false) :
    c.compileField name (.obj fields) = .ok out ↔ out.predicates ≠ [] ∧ ∃ parts,
      Operator.readers.mapM (c.asked (c.fieldRef name) fields) = .ok parts
        ∧ out = .concat parts := by
  rw [compileField_eq_ok, ← mapM_readers_eq_ok]
  simp only [hasks, Bool.false_eq_true, false_and, false_or, true_and]
  refine and_congr_right fun _ => ?_
  constructor
  · rintro ⟨constraint, hread, hcompiled⟩
    obtain ⟨operators, hoperators, hread⟩ := bind_eq_ok.mp hread
    obtain ⟨found, hfound, hoperators⟩ := bind_eq_ok.mp hoperators
    obtain rfl := pure_eq_ok.mp hread
    obtain rfl := pure_eq_ok.mp hoperators
    obtain ⟨parts, hparts, hout⟩ := bind_eq_ok.mp hcompiled
    exact ⟨found, parts, hfound, hparts, (pure_eq_ok.mp hout).symm⟩
  · rintro ⟨found, parts, hfound, hparts, rfl⟩
    exact ⟨_, bind_eq_ok.mpr ⟨_, bind_eq_ok.mpr ⟨found, hfound, rfl⟩, rfl⟩,
      bind_eq_ok.mpr ⟨parts, hparts, rfl⟩⟩

theorem compileEntry_object (hkey : Combinator.ofKey? name = none) :
    c.compileEntry (name, .obj fields) = c.compileField name (.obj fields) := by
  rw [compileEntry, hkey]

/-- Operators on a field compile if those of each reader do and one of them asks for something. -/
theorem compilesEntry_object_iff (hkey : Combinator.ofKey? name = none)
    (hasks : c.asksNothing name (.obj fields) = false) :
    c.CompilesEntry (name, .obj fields) ↔
      (∀ read ∈ Operator.readers, ∃ part, c.asked (c.fieldRef name) fields read = .ok part)
        ∧ ∃ read ∈ Operator.readers, ∃ part, c.asked (c.fieldRef name) fields read = .ok part
          ∧ part.predicates ≠ [] := by
  simp only [CompilesEntry, compileEntry_object hkey, compileField_object_eq_ok hasks]
  constructor
  · rintro ⟨out, hne, parts, hparts, rfl⟩
    refine ⟨exists_mapM_eq_ok_iff.mp ⟨parts, hparts⟩, ?_⟩
    obtain ⟨p, hp⟩ := List.exists_mem_of_ne_nil _ hne
    obtain ⟨part, hpart, hp⟩ := List.mem_flatMap.mp hp
    obtain ⟨read, hread, hasked⟩ := exists_left_of_mem (mapM_eq_ok.mp hparts) hpart
    exact ⟨read, hread, part, hasked, List.ne_nil_of_mem hp⟩
  · rintro ⟨hall, read, hread, part, hasked, hne⟩
    obtain ⟨parts, hparts⟩ := exists_mapM_eq_ok_iff.mpr hall
    refine ⟨.concat parts, ?_, parts, hparts, rfl⟩
    obtain ⟨found, hfound, hsame⟩ := exists_right_of_mem (mapM_eq_ok.mp hparts) hread
    obtain rfl := Except.ok.inj (hasked.symm.trans hsame)
    obtain ⟨p, hp⟩ := List.exists_mem_of_ne_nil _ hne
    exact List.ne_nil_of_mem (List.mem_flatMap.mpr ⟨part, hfound, hp⟩)

/-- Operators that compile admit a row if those that each reader finds do. -/
theorem admitsEntry_object_iff (hkey : Combinator.ofKey? name = none)
    (hasks : c.asksNothing name (.obj fields) = false)
    (hcompiles : c.CompilesEntry (name, .obj fields)) :
    c.AdmitsEntry v (name, .obj fields) ↔ ∀ read ∈ Operator.readers, ∀ part,
      c.asked (c.fieldRef name) fields read = .ok part → part.Holds v := by
  obtain ⟨out, hout⟩ := hcompiles
  rw [compileEntry_object hkey] at hout
  obtain ⟨-, parts, hparts, rfl⟩ := (compileField_object_eq_ok hasks).mp hout
  have hadmits : c.AdmitsEntry v (name, .obj fields) ↔ (Compiled.concat parts).Holds v := by
    simp only [AdmitsEntry, compileEntry_object hkey, hout, Except.ok.injEq, exists_eq_left']
  rw [hadmits, Compiled.holds_concat]
  constructor
  · intro h read hread part hasked
    obtain ⟨found, hfound, hsame⟩ := exists_right_of_mem (mapM_eq_ok.mp hparts) hread
    obtain rfl := Except.ok.inj (hasked.symm.trans hsame)
    exact h part hfound
  · intro h part hpart
    obtain ⟨read, hread, hasked⟩ := exists_left_of_mem (mapM_eq_ok.mp hparts) hpart
    exact h read hread part hasked

/-! ## One list more -/

/-- The operators whose lists hold values that a field is compared with. -/
inductive ListKind where
  | isIn
  | notIn

namespace ListKind

/-- The key of the operator. -/
def key : ListKind → String
  | isIn => "$in"
  | notIn => "$nin"

/-- The operator with a list. -/
def operator : ListKind → List Json → Operator
  | isIn => .isIn
  | notIn => .notIn

/-- The reader of the operator. -/
def reader (kind : ListKind) : Reader := Operator.readList kind.key kind.operator

/-- All other readers. -/
def others : ListKind → List Reader
  | isIn => Operator.readers.eraseIdx 2
  | notIn => Operator.readers.eraseIdx 3

/-- The readers are the one of the operator and all others. -/
theorem forall_readers (kind : ListKind) {P : Reader → Prop} :
    (∀ read ∈ Operator.readers, P read) ↔ P kind.reader ∧ ∀ read ∈ kind.others, P read := by
  cases kind <;>
    simp only [Operator.readers, others, reader, key, operator, List.cons_append,
      List.eraseIdx_cons_succ, List.eraseIdx_cons_zero, List.forall_mem_cons] <;> tauto

variable {kind : ListKind} {value : Json}

/-- A list under the key of an operator leaves what stands under every key but the two of lists. -/
theorem get?_insert (kind : ListKind) (fields : Object) (value : Json) {other : String}
    (hother : other ∉ ["$in", "$nin"]) :
    (fields.insert kind.key value).get? other = fields.get? other := by
  refine Dict.get?_insert_of_ne _ _ fun heq => hother ?_
  cases kind <;> simp [heq, key]

/-- Every other reader but that of tagged values finds the same with one list more. -/
theorem read_insert (kind : ListKind) (fields : Object) (value : Json)
    (hread : read ∈ kind.others) :
    read = Operator.readTagged ∨ read (fields.insert kind.key value) = read fields := by
  revert read
  cases kind <;>
    simp [others, Operator.readers, Comparator.all, Operator.readAny, Operator.readList,
      Operator.readPresence, Operator.readContainedBy, Operator.readText, Operator.readNear,
      Operator.maxDistance, Operator.readBox, Operator.readArea, Operator.readIntersects,
      Operator.readPattern, Operator.patternOptions, Operator.readBound, Comparator.key, key,
      Dict.get?_insert_of_ne]

/-! ## Tagged values with one list more -/

section Tagged

variable {tag member : String} {found : Option TaggedValue}

/-- A member of a tagged value is found with one list more, since no member has the key of an
operator. -/
theorem member_insert (kind : ListKind) (hmember : member ∉ ["$in", "$nin"]) :
    (Json.obj (fields.insert kind.key value)).get? member = (Json.obj fields).get? member :=
  kind.get?_insert fields value hmember

/-- What is read of a tagged value is read with one list more, if the members that are looked at
are. -/
theorem ofTag?_bind_insert {α : Type} {g : Json → Option α}
    (hg : g (.obj (fields.insert kind.key value)) = g (.obj fields)) :
    ((Json.obj (fields.insert kind.key value)).ofTag? tag).bind g
      = ((Json.obj fields).ofTag? tag).bind g := by
  unfold Json.ofTag? Json.typeTag?
  rw [kind.member_insert (by decide)]
  split
  · exact hg
  · rfl

/-- A text that is read of a tagged value is read with one list more. -/
theorem taggedText?_insert (hmember : member ∉ ["$in", "$nin"]) :
    (Json.obj (fields.insert kind.key value)).taggedText? tag member
      = (Json.obj fields).taggedText? tag member :=
  ofTag?_bind_insert (by rw [kind.member_insert hmember])

theorem pointer_insert : Pointer.ofJson? (.obj (fields.insert kind.key value))
    = Pointer.ofJson? (.obj fields) := by
  rw [Pointer.ofJson?, Pointer.ofJson?, taggedText?_insert (by decide),
    taggedText?_insert (by decide)]

theorem geoPoint_insert : GeoPoint.ofJson? (.obj (fields.insert kind.key value))
    = GeoPoint.ofJson? (.obj fields) :=
  ofTag?_bind_insert (by rw [kind.member_insert (by decide), kind.member_insert (by decide)])

theorem polygon_insert : Polygon.ofJson? (.obj (fields.insert kind.key value))
    = Polygon.ofJson? (.obj fields) :=
  ofTag?_bind_insert (by rw [kind.member_insert (by decide)])

/-- A tagged value is read with one list more, and asks the same of a field that holds no arrays. -/
theorem taggedValue?_insert (harray : f.isArray = false)
    (h : Operator.taggedValue? (.obj fields) tag = .ok found) :
    ∃ found', Operator.taggedValue? (.obj (fields.insert kind.key value)) tag = .ok found'
      ∧ found'.map f.equalsTagged = found.map f.equalsTagged := by
  unfold Operator.taggedValue? at h ⊢
  split at h
  · obtain ⟨target, htarget, h⟩ := bind_eq_ok.mp h
    obtain rfl := pure_eq_ok.mp h
    refine ⟨_, bind_eq_ok.mpr ⟨target, OperandFault.demand_eq_ok.mpr ?_, rfl⟩, ?_⟩
    · exact pointer_insert.trans (OperandFault.demand_eq_ok.mp htarget)
    · simp [FieldRef.equalsTagged, harray]
  · obtain ⟨iso, hiso, h⟩ := bind_eq_ok.mp h
    obtain rfl := pure_eq_ok.mp h
    have hfound : (Json.obj (fields.insert kind.key value)).date? = some iso :=
      (taggedText?_insert (by decide)).trans (OperandFault.demand_eq_ok.mp hiso)
    refine ⟨_, ?_, rfl⟩
    rw [hfound]
    rfl
  · obtain ⟨point, hpoint, h⟩ := bind_eq_ok.mp h
    obtain ⟨read, hread, hvalid⟩ := bind_eq_ok.mp hpoint
    obtain rfl := pure_eq_ok.mp h
    have hfound : GeoPoint.ofJson? (.obj (fields.insert kind.key value)) = some read :=
      geoPoint_insert.trans (OperandFault.demand_eq_ok.mp hread)
    refine ⟨_, ?_, rfl⟩
    rw [Operator.pointOnGlobe, hfound]
    exact bind_eq_ok.mpr ⟨point, hvalid, rfl⟩
  · obtain ⟨ring, hring, h⟩ := bind_eq_ok.mp h
    obtain rfl := pure_eq_ok.mp h
    refine ⟨_, ?_, rfl⟩
    rw [polygon_insert, OperandFault.demand_eq_ok.mp hring]
    rfl
  · obtain ⟨file, hfile, h⟩ := bind_eq_ok.mp h
    obtain rfl := pure_eq_ok.mp h
    have hfound : (Json.obj (fields.insert kind.key value)).fileName? = some file :=
      (taggedText?_insert (by decide)).trans (OperandFault.demand_eq_ok.mp hfile)
    refine ⟨_, ?_, rfl⟩
    rw [hfound]
    rfl
  · exact ⟨found, h, rfl⟩

/-- What is asked by tagged values is asked by what they are read as. -/
theorem compile_tagged (found : Option TaggedValue) :
    (found.toList.map Operator.tagged).mapM (f.compileOperator c.now)
      = ((found.map f.equalsTagged).toList.mapM (·.map Compiled.ofPredicate)) := by
  cases found <;> rfl

/-- The reader of tagged values finds what asks the same with one list more. -/
theorem readTagged_insert {operators : List Operator} (harray : f.isArray = false)
    (h : Operator.readTagged fields = .ok operators) :
    ∃ operators', Operator.readTagged (fields.insert kind.key value) = .ok operators'
      ∧ operators'.mapM (f.compileOperator c.now) = operators.mapM (f.compileOperator c.now) := by
  have htag : (Json.obj (fields.insert kind.key value)).typeTag? = (Json.obj fields).typeTag? :=
    congrArg (Option.bind · Json.str?) (kind.member_insert (by decide))
  unfold Operator.readTagged at h ⊢
  rw [htag]
  cases htagged : (Json.obj fields).typeTag? with
  | none =>
    rw [htagged] at h
    exact ⟨operators, h, rfl⟩
  | some tag =>
    rw [htagged] at h
    obtain ⟨found, hfound, h⟩ := bind_eq_ok.mp h
    obtain rfl := pure_eq_ok.mp h
    obtain ⟨found', hfound', hsame⟩ := taggedValue?_insert harray hfound
    exact ⟨_, bind_eq_ok.mpr ⟨found', hfound', rfl⟩, by rw [compile_tagged, compile_tagged, hsame]⟩

end Tagged

/-- What all other readers find asks the same with one list more, unless arrays are compared. -/
theorem asked_insert (harray : f.isArray = false) (hread : read ∈ kind.others)
    (h : c.asked f fields read = .ok part) :
    c.asked f (fields.insert kind.key value) read = .ok part := by
  obtain rfl | hsame := kind.read_insert fields value hread
  · obtain ⟨operators, parts, hoperators, hparts, rfl⟩ := asked_eq_ok.mp h
    obtain ⟨operators', hoperators', hsame⟩ := readTagged_insert harray hoperators
    exact asked_eq_ok.mpr ⟨operators', parts, hoperators', hsame.trans hparts, rfl⟩
  · rw [asked, hsame]
    exact h

/-! ## The list itself -/

/-- What the list of an operator asks of a field that holds single values. -/
def predicate (f : FieldRef) (values : List Json) : ListKind → Predicate
  | isIn => f.scalarIsIn (FieldRef.flatten values)
  | notIn => f.scalarNotIn (FieldRef.flatten values)

/-- A column that holds single values passes the list of an operator. -/
def Accepts (f : FieldRef) (held : Engine.Scalar) (values : List Json) : ListKind → Prop
  | isIn => f.EqualsOneOf held (FieldRef.flatten values)
      ∨ held = none ∧ (FieldRef.flatten values).any Json.isNull = true
  | notIn => ¬ f.EqualsOneOf held (FieldRef.flatten values)
      ∧ (held = none → FieldRef.flatten values = [])

variable {values : List Json} {held : Engine.Scalar} {rest : Valuation}

theorem asked_reader_of_none (h : fields.get? kind.key = none) :
    c.asked f fields kind.reader = .ok (.concat []) := by
  rw [asked, reader, Operator.readList, h]
  rfl

/-- What is read under the key of an operator is a list. -/
theorem exists_list_of_asked (h : c.asked f fields kind.reader = .ok part) :
    fields.get? kind.key = none ∨ ∃ values, fields.get? kind.key = some (.arr values) := by
  obtain ⟨operators, parts, hread, -, -⟩ := asked_eq_ok.mp h
  cases hget : fields.get? kind.key with
  | none => exact .inl rfl
  | some payload =>
    rw [reader, Operator.readList, hget] at hread
    obtain ⟨values, hvalues, -⟩ := bind_eq_ok.mp hread
    cases payload with
    | arr items => exact .inr ⟨items, rfl⟩
    | _ => cases OperandFault.demand_eq_ok.mp hvalues

section Single

variable (harray : f.isArray = false) (hpath : f.isPath = false)
include harray hpath

/-- A list is asked of the column as it is, flattened. -/
theorem asked_reader_of_list (h : fields.get? kind.key = some (.arr values)) :
    c.asked f fields kind.reader = .ok (.concat [.ofPredicate (kind.predicate f values)]) := by
  have hread : kind.reader fields = .ok [kind.operator values] := by
    rw [reader, Operator.readList, h]
    rfl
  have hcompile : f.compileOperator c.now (kind.operator values)
      = .ok (.ofPredicate (kind.predicate f values)) := by
    cases kind <;>
      simp [operator, predicate, FieldRef.compileOperator, FieldRef.isIn, FieldRef.notIn, harray,
        hpath]
  refine asked_eq_ok.mpr ⟨_, _, hread, ?_, rfl⟩
  rw [List.mapM_cons, hcompile]
  rfl

omit harray in
/-- The predicate of a list is true on a column if the column passes the list. -/
theorem truth_predicate_iff :
    (kind.predicate f values).truth (Engine.truthAt f.name held rest) = some true
      ↔ kind.Accepts f held values := by
  cases kind with
  | isIn => exact FieldRef.truth_scalarIsIn_iff hpath
  | notIn => exact FieldRef.truth_scalarNotIn_iff hpath

/-- What is asked by the list under the key of an operator holds if the column passes the list. -/
theorem holds_reader_iff (hok : ∃ part, c.asked f fields kind.reader = .ok part) :
    (∀ part, c.asked f fields kind.reader = .ok part → part.Holds (Engine.truthAt f.name held rest))
      ↔ ∀ values, fields.get? kind.key = some (.arr values) → kind.Accepts f held values := by
  obtain ⟨part, hpart⟩ := hok
  obtain hnone | ⟨values, hvalues⟩ := exists_list_of_asked hpart
  · rw [asked_reader_of_none hnone]
    simp [hnone, Compiled.Holds]
  · rw [asked_reader_of_list harray hpath hvalues]
    simp only [Except.ok.injEq, forall_eq', Compiled.holds_concat, List.forall_mem_singleton,
      hvalues, Option.some.injEq, Json.arr.injEq]
    exact List.forall_mem_singleton.trans (truth_predicate_iff hpath)

end Single

/-- What all other readers find holds. -/
def OthersHold (c : Compiler) (f : FieldRef) (fields : Object) (v : Valuation)
    (kind : ListKind) : Prop :=
  ∀ read ∈ kind.others, ∀ part, c.asked f fields read = .ok part → part.Holds v

theorem asksNothing_insert (kind : ListKind) (fields : Object) (value : Json) :
    c.asksNothing name (.obj (fields.insert kind.key value))
      = c.asksNothing name (.obj fields) := by
  rw [asksNothing, asksNothing, kind.member_insert (by decide)]

section Entry

variable (hkey : Combinator.ofKey? name = none) (hpath : Text.contains name "." = false)
  (harray : (c.fieldRef name).isArray = false) (hasks : c.asksNothing name (.obj fields) = false)
  (hcompiles : c.CompilesEntry (name, .obj fields))
include hkey hpath harray hasks hcompiles

/-- Operators that compile admit a row if the list of one of them is passed and the others hold. -/
theorem admitsEntry_iff (kind : ListKind) :
    c.AdmitsEntry (Engine.truthAt name held rest) (name, .obj fields) ↔
      (∀ values, fields.get? kind.key = some (.arr values)
        → kind.Accepts (c.fieldRef name) held values)
      ∧ kind.OthersHold c (c.fieldRef name) fields (Engine.truthAt name held rest) := by
  have hok := ((compilesEntry_object_iff hkey hasks).mp hcompiles).1
  rw [admitsEntry_object_iff hkey hasks hcompiles, kind.forall_readers]
  exact and_congr_left' (holds_reader_iff (f := c.fieldRef name) harray hpath
    (kind.forall_readers.mp hok).1)

/-- With one list in place of another, operators compile still, and all but the list of the one
operator counts as it did. -/
theorem insert_list (kind : ListKind) (values : List Json) :
    c.CompilesEntry (name, .obj (fields.insert kind.key (.arr values)))
      ∧ ∀ held rest, c.AdmitsEntry (Engine.truthAt name held rest)
          (name, .obj (fields.insert kind.key (.arr values))) ↔
        kind.Accepts (c.fieldRef name) held values
          ∧ kind.OthersHold c (c.fieldRef name) fields (Engine.truthAt name held rest) := by
  have hasks' : c.asksNothing name (.obj (fields.insert kind.key (.arr values))) = false :=
    (kind.asksNothing_insert fields (.arr values)).trans hasks
  have hget : (fields.insert kind.key (.arr values)).get? kind.key = some (.arr values) :=
    Dict.get?_insert_self ..
  have hlist := asked_reader_of_list (c := c) (f := c.fieldRef name) harray hpath hget
  obtain ⟨-, hok⟩ := kind.forall_readers.mp ((compilesEntry_object_iff hkey hasks).mp hcompiles).1
  have hothers {read : Reader} (hread : read ∈ kind.others) {part : Compiled} :
      c.asked (c.fieldRef name) (fields.insert kind.key (.arr values)) read = .ok part
        ↔ c.asked (c.fieldRef name) fields read = .ok part := by
    obtain ⟨found, hfound⟩ := hok read hread
    rw [asked_insert harray hread hfound, hfound]
  have hcompiles' : c.CompilesEntry (name, .obj (fields.insert kind.key (.arr values))) := by
    have hreader : kind.reader ∈ Operator.readers := (kind.forall_readers.mp fun _ => id).1
    rw [compilesEntry_object_iff hkey hasks', kind.forall_readers]
    refine ⟨⟨⟨_, hlist⟩, ?_⟩, ?_⟩
    · intro read hread
      obtain ⟨part, hpart⟩ := hok read hread
      exact ⟨part, (hothers hread).mpr hpart⟩
    -- the list itself asks for something
    · exact ⟨kind.reader, hreader, _, hlist, List.cons_ne_nil _ _⟩
  refine ⟨hcompiles', ?_⟩
  intro held rest
  rw [admitsEntry_iff hkey hpath harray hasks' hcompiles' kind]
  refine and_congr ?_ ?_
  · simp only [hget, Option.some.injEq, Json.arr.injEq, forall_eq']
  · refine forall₂_congr ?_
    intro read hread
    simp only [hothers hread]

end Entry

end ListKind

end Compiler

end ObjectStore
