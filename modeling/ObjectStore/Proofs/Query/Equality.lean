import ObjectStore.Proofs.Query.Folding

/-!
# Two spellings of equality

That a field equals a scalar is asked by the scalar itself, or by `$eq`. Null, texts and numbers
compile alike in both spellings. A flag under `$eq` is sent in the form of the column, as all other
values are, but a bare flag is sent as it is, and to a column of numbers as a number that none of
them holds. So the two spellings of a flag differ just for the types that `DistinguishesFlags` names
(`spelled_alike_iff`).
-/

namespace ObjectStore

/-- Whether a value is null, a flag, a number or a text. -/
def Json.isScalar : Json → Bool
  | .arr _ | .obj _ => false
  | _ => true

theorem Json.get?_scalar {value : Json} (hscalar : value.isScalar = true) (key : String) :
    value.get? key = none := by
  cases value with
  | arr | obj => cases hscalar
  | _ => rfl

/-- A scalar is no time relative to now. -/
theorem FieldRef.refuseRelativeTime_scalar {value : Json} (hscalar : value.isScalar = true) :
    refuseRelativeTime value = .ok () := by
  rw [refuseRelativeTime, Json.get?_scalar hscalar]
  rfl

namespace FieldType

/-- A bare flag is not sent to a column of the type as a flag under `$eq` is: numbers, moments and
documents. -/
def DistinguishesFlags (type : Option FieldType) : Prop :=
  type = some .number ∨ type = some .date ∨ type.bind column? = some .json

/-- A flag to compare with a column: moments and documents have it in a form of their own. -/
theorem comparand_flag (type : Option FieldType) (flag : Bool) :
    comparand type (.bool flag)
      = if type = some .date then Sql.bind (.bool flag) ++ Sql.text "::timestamptz"
        else if type.bind column? = some .json then Sql.bindJson (Json.bool flag).compact
        else Sql.bind (.bool flag) := by
  have hdate : (Json.bool flag).date? = none := rfl
  simp [comparand, hdate, Json.param]

end FieldType

/-- The condition of a filter with its placeholders numbered from `index`, and the values that are
bound. -/
def Filter.written (filter : Filter) (index : Nat) : String × List Param :=
  (Mark.join (filter.marks index), filter.params)

/-! ## What is written for a comparison -/

namespace FieldRef

/-- The filter of a field that is compared with an operand. -/
def equalTo (f : FieldRef) (operand : Sql) : Filter := ⟨some (f.compareWith "=" operand), []⟩

variable {f : FieldRef} {index : Nat} {a b : Sql}

/-- A comparison is written as the column and the sign, and then the operand. -/
theorem exists_written (f : FieldRef) (index : Nat) : ∃ length params start, ∀ operand,
    ((f.equalTo operand).written index).1.length = length + (Sql.render start operand).length
      ∧ ((f.equalTo operand).written index).2 = params ++ operand.params := by
  let sign := f.column ++ Sql.text (" " ++ "=" ++ " ")
  refine ⟨(Sql.render index sign).length, sign.params, index + Sql.bindCount sign, ?_⟩
  intro operand
  constructor
  · exact Sql.length_render_append index sign operand
  · change Sql.params (sign ++ operand ++ []) = _
    rw [List.append_nil, Sql.params_append]

/-- Other values, other filters. -/
theorem written_ne_of_params (h : a.params ≠ b.params) :
    (f.equalTo a).written index ≠ (f.equalTo b).written index := by
  intro heq
  obtain ⟨length, params, start, hwritten⟩ := exists_written f index
  have hparams := congrArg Prod.snd heq
  rw [(hwritten a).2, (hwritten b).2] at hparams
  exact h (List.append_cancel_left hparams)

/-- A cast takes room in the text. -/
theorem written_ne_of_cast (f : FieldRef) (index : Nat) (operand : Sql) :
    (f.equalTo operand).written index
      ≠ (f.equalTo (operand ++ Sql.text "::timestamptz")).written index := by
  intro heq
  obtain ⟨length, params, start, hwritten⟩ := exists_written f index
  have hlength := congrArg (fun written => written.1.length) heq
  have hcast : ∀ index, (Sql.render index (Sql.text "::timestamptz")).length = 13 := by
    intro index
    rw [Sql.text, Sql.length_render_cons, Sql.length_render_nil, Nat.add_zero]
    change "::timestamptz".length = 13
    decide
  simp only [(hwritten _).1, Sql.length_render_append, hcast] at hlength
  omega

/-- A bare flag and one in the form of the column are written alike, unless the type tells them
apart. -/
theorem written_flag_eq_iff (f : FieldRef) (flag : Bool) (index : Nat) :
    (f.equalTo (Sql.bind (if f.type = some .number then .double Compiler.unmatchable
        else .bool flag))).written index
      = (f.equalTo (FieldType.comparand f.type (.bool flag))).written index
      ↔ ¬ FieldType.DistinguishesFlags f.type := by
  rw [FieldType.comparand_flag]
  unfold FieldType.DistinguishesFlags
  by_cases hnumber : f.type = some .number
  · -- one number stands for both flags
    have hcolumn : f.type.bind FieldType.column? = some .double := by rw [hnumber]; rfl
    refine iff_of_false (written_ne_of_params ?_) (not_not.mpr (.inl hnumber))
    simp [hnumber, FieldType.column?, Sql.params, Sql.bind, Token.param?]
  rw [if_neg hnumber]
  by_cases hmoment : f.type = some .date
  · rw [if_pos hmoment]
    exact iff_of_false (written_ne_of_cast f index _) (not_not.mpr (.inr (.inl hmoment)))
  rw [if_neg hmoment]
  by_cases hdocument : f.type.bind FieldType.column? = some .json
  · -- a document is sent as its text
    rw [if_pos hdocument]
    refine iff_of_false (written_ne_of_params ?_) (not_not.mpr (.inr (.inr hdocument)))
    simp [Sql.params, Sql.bind, Sql.bindJson, Sql.bindText, Sql.text, Token.param?]
  · rw [if_neg hdocument]
    exact iff_of_true rfl (by simp [hnumber, hmoment, hdocument])

end FieldRef

/-! ## What scalars compile to -/

namespace Compiler

open Result

variable {c : Compiler} {name : String} {value : Json} {out : Compiled}

/-- A query of one field compiles to what the field compiles to. -/
theorem ofQuery_field (hkey : Combinator.ofKey? name = none)
    (h : c.compileField name value = .ok out) :
    Filter.ofQuery c [(name, value)] = .ok ⟨Predicate.all? out.predicates, out.sorts⟩ := by
  have hentry : c.compileEntry (name, value) = .ok out := by rw [compileEntry, hkey, h]
  have hquery : c.compileEntries [(name, value)] = .ok (out ++ {}) := by
    rw [compileEntries_cons, hentry, compileEntries]
    rfl
  rw [Filter.ofQuery, hquery]
  change Except.ok (Filter.mk (Predicate.all? (out.predicates ++ [])) (out.sorts ++ [])) = _
  rw [List.append_nil, List.append_nil]

/-- Under `$eq` the field is compared with the value in the form of its column; null asks that there
be nothing. -/
theorem compileField_spelled (hscalar : value.isScalar = true)
    (hpath : Text.contains name "." = false) :
    c.compileField name (.obj [("$eq", value)]) = .ok (.ofPredicate
      (if value.isNull then (c.fieldRef name).isNull
        else (c.fieldRef name).compareWith "="
          (FieldType.comparand (c.fieldRef name).type value))) := by
  have hisPath : (c.fieldRef name).isPath = false := hpath
  have hread : Constraint.ofJson (.obj [("$eq", value)]) = .ok (.operators [.equal value]) := rfl
  refine compileField_operator (asksNothing_eq_false rfl) hread ?_
  cases hnull : value.isNull <;>
    simp [FieldRef.compileOperator, FieldRef.equals, hnull, FieldRef.compareValue, hisPath,
      FieldRef.refuseRelativeTime_scalar hscalar, bind, Except.bind, Except.map, pure, Except.pure]

/-- A bare scalar that is no flag compiles as it does under `$eq`. -/
theorem compileField_bare (hscalar : value.isScalar = true) (hflag : value.bool? = none)
    (hpath : Text.contains name "." = false) (hcase : c.ignoresCaseOf name = false) :
    c.compileField name value = c.compileField name (.obj [("$eq", value)]) := by
  have hisPath : (c.fieldRef name).isPath = false := hpath
  have hfolds : c.ignoresCaseOf (c.fieldRef name).name = false := hcase
  rw [compileField_spelled hscalar hpath, compileField,
    asksNothing_eq_false (Json.get?_scalar hscalar "$exists")]
  cases value with
  | null => rfl
  | bool flag => cases hflag
  | int n =>
    simp only [Bool.false_eq_true, if_false, Constraint.ofJson, compileConstraint, equalsScalar,
      hisPath]
    rfl
  | double x =>
    simp only [Bool.false_eq_true, if_false, Constraint.ofJson, compileConstraint, equalsScalar,
      hisPath]
    rfl
  | str s =>
    simp only [Bool.false_eq_true, if_false, Constraint.ofJson, compileConstraint, equalsText,
      hfolds, equalsScalar, hisPath]
    rfl
  | arr | obj => cases hscalar

/-- A bare flag is sent as it is, but to a column of numbers as one that none of them holds. -/
theorem compileField_flag (hpath : Text.contains name "." = false) (flag : Bool) :
    c.compileField name (.bool flag) = .ok (.ofPredicate
      ((c.fieldRef name).compareWith "=" (Sql.bind
        (if (c.fieldRef name).type = some .number then .double unmatchable else .bool flag)))) := by
  have hisPath : (c.fieldRef name).isPath = false := hpath
  rw [compileField, asksNothing_eq_false rfl]
  simp only [Bool.false_eq_true, if_false, Constraint.ofJson, compileConstraint, equalsFlag,
    equalsScalar, hisPath]
  rfl

/-- That a field equals a scalar compiles in both spellings, and is written in the same text with
the same values, unless the scalar is a flag and the type of the field tells the two spellings
apart. -/
theorem spelled_alike_iff (c : Compiler) (name : String) (value : Json)
    (hscalar : value.isScalar = true) (hkey : Combinator.ofKey? name = none)
    (hpath : Text.contains name "." = false) (hcase : c.ignoresCaseOf name = false) :
    ∃ bare spelled, Filter.ofQuery c [(name, value)] = .ok bare
      ∧ Filter.ofQuery c [(name, .obj [("$eq", value)])] = .ok spelled
      ∧ ∀ index, (bare.written index = spelled.written index
        ↔ ¬ (value.bool?.isSome = true ∧ FieldType.DistinguishesFlags (c.fieldRef name).type)) := by
  have hspelled := compileField_spelled (c := c) hscalar hpath
  cases hflag : value.bool? with
  | none =>
    have hbare := (compileField_bare hscalar hflag hpath hcase).trans hspelled
    exact ⟨_, _, ofQuery_field hkey hbare, ofQuery_field hkey hspelled, fun index => by simp⟩
  | some flag =>
    obtain rfl : value = .bool flag := by
      cases value <;> first | exact congrArg Json.bool (Option.some.inj hflag) | cases hflag
    refine
      ⟨_, _, ofQuery_field hkey (compileField_flag hpath flag), ofQuery_field hkey hspelled, ?_⟩
    intro index
    exact (FieldRef.written_flag_eq_iff (c.fieldRef name) flag index).trans (by simp)

/-- Players with a score and a day of birth. -/
def players : Compiler :=
  .ofSchema (((Schema.ofClass "Player").withField "score" .number).withField "born" .date) true
    ⟨0, 0⟩

/-- A day of birth is cast to a moment in both spellings, also in a store that ignores case. -/
theorem birthday_spelled_alike :
    Json.isScalar (.str "2001-02-03") = true ∧ Combinator.ofKey? "born" = none
      ∧ Text.contains "born" "." = false ∧ players.ignoresCaseOf "born" = false
      ∧ ∃ bare spelled, Filter.ofQuery players [("born", .str "2001-02-03")] = .ok bare
        ∧ Filter.ofQuery players [("born", .obj [("$eq", .str "2001-02-03")])] = .ok spelled
        ∧ (bare.written 1).1 = "\"born\" = $1::timestamptz"
        ∧ ∀ index, bare.written index = spelled.written index := by
  have hscalar : Json.isScalar (.str "2001-02-03") = true := rfl
  have hkey : Combinator.ofKey? "born" = none := rfl
  have hpath : Text.contains "born" "." = false := by decide
  have hcase : players.ignoresCaseOf "born" = false := by decide
  obtain ⟨bare, spelled, hbare, hspelled, hiff⟩ :=
    spelled_alike_iff players "born" (.str "2001-02-03") hscalar hkey hpath hcase
  refine ⟨hscalar, hkey, hpath, hcase, bare, spelled, hbare, hspelled, ?_,
    fun index => (hiff index).mpr fun hflag => nomatch hflag.1⟩
  obtain rfl := Except.ok.inj hbare
  decide +kernel

/-- A bare flag is sent to a score as a number that no score is, and a flag under `$eq` as a
flag. -/
theorem flagOfScore_spelled_apart :
    ∃ bare spelled, Filter.ofQuery players [("score", .bool true)] = .ok bare
      ∧ Filter.ofQuery players [("score", .obj [("$eq", .bool true)])] = .ok spelled
      ∧ bare.params = [.double unmatchable] ∧ spelled.params = [.bool true]
      ∧ bare.written 1 ≠ spelled.written 1 := by
  refine ⟨_, _, rfl, rfl, rfl, rfl, ?_⟩
  intro heq
  exact nomatch congrArg Prod.snd heq

end Compiler

end ObjectStore
