import ObjectStore.Proofs.Engine.Containment
import ObjectStore.Proofs.Query.Entrywise

/-!
# Lists of texts in columns of either kind

A field that holds arrays of strings is kept as an array of texts, and a field that holds any arrays
as a document. The same query is compiled to the operators of the one and to the functions of the
other. `admits_alike_iff` compares the two on every list of texts, and on a row that holds none:
they select the same rows but in two cases.

* An empty list of values is held by every array of texts, and by no document
  (`emptyAll_tells_apart`).
* A list as the one value to differ from is looked for by its text in an array of texts, and no text
  in a document is a list.
-/

namespace ObjectStore.Query

open Engine

/-- What a query asks of a field that holds lists of texts. -/
inductive ArrayTest where
  | isIn (operands : List String)
  | notIn (operands : List String)
  | containsAll (operands : List String)
  | differs (operand : String)
  | differsFromList (operands : List String)

namespace ArrayTest

/-- The constraint of a query. -/
def constraint : ArrayTest → Json
  | .isIn operands => .obj [("$in", .ofStrings operands)]
  | .notIn operands => .obj [("$nin", .ofStrings operands)]
  | .containsAll operands => .obj [("$all", .ofStrings operands)]
  | .differs operand => .obj [("$ne", .str operand)]
  | .differsFromList operands => .obj [("$ne", .ofStrings operands)]

/-- The operator that a constraint is read as. -/
def operator : ArrayTest → Operator
  | .isIn operands => .isIn (operands.map .str)
  | .notIn operands => .notIn (operands.map .str)
  | .containsAll operands => .containsAll (operands.map .str)
  | .differs operand => .notEqual (.str operand)
  | .differsFromList operands => .notEqual (.ofStrings operands)

/-- What is asked of a field. -/
def predicate (f : FieldRef) : ArrayTest → Predicate
  | .isIn operands => f.arrayIsIn (operands.map .str)
  | .notIn operands => f.arrayNotIn (operands.map .str)
  | .containsAll operands => f.containsAll (operands.map .str)
  | .differs operand => .any [f.isNull, .not (f.containsAny [.str operand])]
  | .differsFromList operands => .any [f.isNull, .not (f.containsAny [.ofStrings operands])]

/-- Whether a constraint tells columns of the two kinds apart. -/
def TellsApart : ArrayTest → Option (List String) → Prop
  | .containsAll [], some _ => True
  | .differsFromList operands, some texts => (Json.ofStrings operands).compact ∈ texts
  | _, _ => False

end ArrayTest

/-- What a column keeps after a list of texts, or nothing, was stored in its field. -/
def KeptAs (type : FieldType) (cell : Option (List String)) (held : Held) : Prop :=
  ∃ column sql, type.column? = some column
    ∧ type.encode (cell.elim .null .ofStrings) = .ok (some sql) ∧ Stores column sql held

variable {c : Compiler} {f : FieldRef} {v : Valuation} {name : String} {rest : Valuation}
  {cell : Option (List String)} {held : Held} {test : ArrayTest} {operands : List String}

/-! ## Compiling -/

/-- Texts are no lists, so nothing is taken apart. -/
theorem flatten_strings (operands : List String) :
    FieldRef.flatten (operands.map .str) = operands.map .str := by
  rw [FieldRef.flatten, List.flatMap_map, List.map_eq_flatMap]

/-- Each constraint compiles to what is asked of the field. -/
theorem compileOperator_arrayTest (test : ArrayTest) (harray : f.isArray = true)
    (hpath : f.isPath = false) (now : Timestamp) :
    f.compileOperator now test.operator = .ok (.ofPredicate (test.predicate f)) := by
  cases test with
  | isIn operands =>
    simp [ArrayTest.operator, ArrayTest.predicate, FieldRef.compileOperator, FieldRef.isIn,
      flatten_strings, hpath, harray]
  | notIn operands =>
    simp [ArrayTest.operator, ArrayTest.predicate, FieldRef.compileOperator, FieldRef.notIn,
      flatten_strings, hpath, harray]
  | containsAll operands =>
    -- texts are no patterns
    have hpatterns : (operands.map Json.str).filterMap FieldRef.anchored? = [] := by
      rw [List.filterMap_map]
      exact List.filterMap_eq_nil_iff.mpr fun _ _ => rfl
    simp [ArrayTest.operator, ArrayTest.predicate, FieldRef.compileOperator, FieldRef.holdsAll,
      hpatterns, harray]
  | differs operand =>
    simp [ArrayTest.operator, ArrayTest.predicate, FieldRef.compileOperator, FieldRef.differs,
      Json.isNull, harray, Except.map]
  | differsFromList operands =>
    simp [ArrayTest.operator, ArrayTest.predicate, FieldRef.compileOperator, FieldRef.differs,
      Json.ofStrings, Json.isNull, harray, Except.map]

/-- A query that asks something of an array admits the rows on which its predicate is true. -/
theorem admits_arrayTest_iff (test : ArrayTest) (hkey : Text.startsWith name "$" = false)
    (harray : (c.fieldRef name).isArray = true) (hpath : (c.fieldRef name).isPath = false) :
    c.Admits v [(name, test.constraint)]
      ↔ (test.predicate (c.fieldRef name)).truth v = some true := by
  have hexists : test.constraint.get? "$exists" = none := by cases test <;> rfl
  have hread : Constraint.ofJson test.constraint = .ok (.operators [test.operator]) := by
    cases test <;> rfl
  exact Compiler.admits_field_iff (Combinator.ofKey?_eq_none hkey)
    (Compiler.compileField_operator (Compiler.asksNothing_eq_false hexists) hread
      (compileOperator_arrayTest test harray hpath c.now))

/-- Texts among which there is no null are looked for alike in columns of either kind. -/
theorem arrayIsIn_strings (f : FieldRef) (operands : List String) :
    f.arrayIsIn (operands.map .str)
      = if operands.isEmpty then f.isNull else f.containsAny (operands.map .str) := by
  have hnull : (operands.map Json.str).any Json.isNull = false := by simp [Json.isNull]
  have hmembers : (operands.map Json.str).filter (fun value => !value.isNull)
      = operands.map .str := by simp [Json.isNull]
  simp [FieldRef.arrayIsIn, hnull, hmembers]

/-- Texts among which there is no null are left out alike in columns of either kind. -/
theorem arrayNotIn_strings (f : FieldRef) (operands : List String) :
    f.arrayNotIn (operands.map .str)
      = if operands.isEmpty then .clause (Sql.text "1 = 1")
        else .any [f.isNull, .not (f.containsAny (operands.map .str))] := by
  have hnull : (operands.map Json.str).any Json.isNull = false := by simp [Json.isNull]
  have hmembers : (operands.map Json.str).filter (fun value => !value.isNull)
      = operands.map .str := by simp [Json.isNull]
  simp [FieldRef.arrayNotIn, hnull, hmembers]

/-! ## What is kept -/

/-- A list of texts is read back from the JSON that is written for it. -/
theorem read?_ofStrings (texts : List String) :
    Json.Content.read? (Json.ofStrings texts).compact = some (.arr (texts.map .str)) := by
  rw [Json.Content.read?_compact (Json.representable_ofStrings texts)
      (Json.canonical_ofStrings texts),
    Json.content_ofStrings]

/-- The list of one list of texts is read back. -/
theorem read?_singleton (texts : List String) :
    Json.Content.read? (Json.arr [Json.ofStrings texts]).compact
      = some (.arr [.arr (texts.map .str)]) := by
  have hrepresentable : (Json.arr [Json.ofStrings texts]).Representable :=
    .arr (List.forall_mem_singleton.mpr (Json.representable_ofStrings texts))
  have hcanonical : (Json.arr [Json.ofStrings texts]).Canonical :=
    .arr (List.forall_mem_singleton.mpr (Json.canonical_ofStrings texts))
  rw [Json.Content.read?_compact hrepresentable hcanonical, Json.content, Json.contentItems,
    Json.content_ofStrings, Json.contentItems]

/-- A field of strings keeps the texts themselves. -/
theorem keptAs_texts_iff :
    KeptAs (.arrayOf .string) cell held ↔ held = cell.elim .nothing .texts := by
  constructor
  · rintro ⟨column, sql, hcolumn, hencode, hstores⟩
    obtain rfl := Option.some.inj hcolumn
    cases cell with
    | none =>
      obtain rfl := Option.some.inj (Except.ok.inj hencode)
      generalize hsql : Sql.text "NULL" = sql at hstores
      cases hstores with
      | nothing => rfl
      | texts => cases hsql
    | some texts =>
      obtain rfl := Option.some.inj (Except.ok.inj hencode)
      cases hstores with
      | texts hread =>
        rw [Json.map_textForm_str, Sql.readArray_arrayLiteral] at hread
        exact congrArg Held.texts (Option.some.inj hread).symm
  · rintro rfl
    cases cell with
    | none => exact ⟨_, _, rfl, rfl, .nothing _⟩
    | some texts =>
      refine ⟨_, _, rfl, rfl, .texts ?_⟩
      rw [Json.map_textForm_str, Sql.readArray_arrayLiteral]

/-- A field of any values keeps the document whose items the texts are. -/
theorem keptAs_document_iff : KeptAs .array cell held ↔
    held = cell.elim .nothing fun texts => .document (.arr (texts.map .str)) := by
  constructor
  · rintro ⟨column, sql, hcolumn, hencode, hstores⟩
    obtain rfl := Option.some.inj hcolumn
    cases cell with
    | none =>
      obtain rfl := Option.some.inj (Except.ok.inj hencode)
      generalize hsql : Sql.text "NULL" = sql at hstores
      cases hstores with
      | nothing => rfl
      | document => cases hsql
    | some texts =>
      rw [Option.elim_some] at hencode
      obtain rfl := Option.some.inj (Except.ok.inj hencode)
      cases hstores with
      | document hread =>
        have hcontent := read?_ofStrings texts
        rw [Json.Content.read?, hread] at hcontent
        exact congrArg Held.document (Option.some.inj hcontent)
  · rintro rfl
    cases cell with
    | none => exact ⟨_, _, rfl, rfl, .nothing _⟩
    | some texts =>
      obtain ⟨v, hread, hcontent⟩ := Option.map_eq_some_iff.mp (read?_ofStrings texts)
      rw [Option.elim_some, ← hcontent]
      exact ⟨_, _, rfl, rfl, .document hread⟩

/-! ## What columns come to -/

/-- A field that is kept as an array of texts. -/
def textsField (name : String) : FieldRef := ⟨name, some (.arrayOf .string), false⟩

/-- A field that is kept as a document. -/
def documentField (name : String) : FieldRef := ⟨name, some .array, false⟩

/-- `IS NULL` is asked of a column whatever its type is. -/
theorem truth_isNull (name : String) (type : Option FieldType) (held : Held) (rest : Valuation) :
    (FieldRef.isNull ⟨name, type, false⟩).truth (truthOn name held rest)
      = ColumnTest.isNull.on held := by
  rw [FieldRef.isNull, Predicate.truth_clause]
  exact truthOn_eq (ColumnTest.read?_isNull name)

/-- An array of texts is asked for an overlap with the texts of the values. -/
theorem truth_containsAny_texts (values : List Json) :
    ((textsField name).containsAny values).truth (truthOn name held rest)
      = (ColumnTest.overlaps (values.map Json.textForm)).on held := by
  have hread := ColumnTest.read?_overlaps name (values.map Json.textForm)
  exact (Predicate.truth_clause _).trans (truthOn_eq hread)

/-- An array of texts is asked whether it holds the texts of all the values. -/
theorem truth_containsAll_texts (values : List Json) :
    ((textsField name).containsAll values).truth (truthOn name held rest)
      = (ColumnTest.holdsAll (values.map Json.textForm)).on held := by
  have hread := ColumnTest.read?_holdsAll name (values.map Json.textForm)
  exact (Predicate.truth_clause _).trans (truthOn_eq hread)

/-- A document is asked for a common item with what the text of the values is read as. -/
theorem truth_containsAny_document {values : List Json} {content : Json.Content}
    (h : Json.Content.read? (Json.arr values).compact = some content) :
    ((documentField name).containsAny values).truth (truthOn name held rest)
      = (ColumnTest.contains content).on held := by
  have hread := ColumnTest.read?_contains name h
  exact (Predicate.truth_clause _).trans (truthOn_eq hread)

/-- A document is asked whether it holds all that the text of the values is read as. -/
theorem truth_containsAll_document {values : List Json} {content : Json.Content}
    (h : Json.Content.read? (Json.arr values).compact = some content) :
    ((documentField name).containsAll values).truth (truthOn name held rest)
      = (ColumnTest.containsAll content).on held := by
  have hread := ColumnTest.read?_containsAll name h
  exact (Predicate.truth_clause _).trans (truthOn_eq hread)

/-- A field is seen to hold some texts, or nothing, by whether it is null and by which texts it
holds. -/
structure Sees (f : FieldRef) (v : Valuation) (cell : Option (List String)) : Prop where
  isNull : f.isNull.truth v = some cell.isNone
  containsAny : ∀ operands : List String, (f.containsAny (operands.map .str)).truth v
    = cell.map fun texts => operands.any fun operand => texts.contains operand
  one : (Predicate.clause (Sql.text "1 = 1")).truth v = some true

/-- An array of texts is seen to hold the texts it holds. -/
theorem sees_texts (name : String) (cell : Option (List String)) (rest : Valuation) :
    Sees (textsField name) (truthOn name (cell.elim .nothing .texts) rest) cell where
  isNull := by
    rw [textsField, truth_isNull]
    cases cell <;> rfl
  containsAny operands := by
    rw [truth_containsAny_texts, Json.map_textForm_str]
    cases cell <;> rfl
  one := by rw [Predicate.truth_clause]; rfl

/-- A document whose items are texts is seen to hold these texts. -/
theorem sees_document (name : String) (cell : Option (List String)) (rest : Valuation) :
    Sees (documentField name)
      (truthOn name (cell.elim .nothing fun texts => .document (.arr (texts.map .str))) rest)
      cell where
  isNull := by
    rw [documentField, truth_isNull]
    cases cell <;> rfl
  containsAny operands := by
    rw [truth_containsAny_document (read?_ofStrings operands)]
    cases cell with
    | none => rfl
    | some texts => exact congrArg some (arrayContains_texts texts operands)
  one := by rw [Predicate.truth_clause]; rfl

section Sees

variable (h : Sees f v cell)
include h

/-- An empty list of values asks for a field that is null, any other one for a common text. -/
theorem Sees.truth_isIn (operands : List String) :
    ((ArrayTest.isIn operands).predicate f).truth v
      = if operands.isEmpty then some cell.isNone
        else cell.map fun texts => operands.any fun operand => texts.contains operand := by
  rw [ArrayTest.predicate, arrayIsIn_strings]
  split
  · exact h.isNull
  · exact h.containsAny operands

/-- Where a field is null it differs, and so it does where a condition is false. -/
theorem Sees.truth_isNull_or_not (p : Predicate) :
    (Predicate.any [f.isNull, .not p]).truth v
      = Truth.or (some cell.isNone) (Truth.not (p.truth v)) := by
  simp [Predicate.truth, Predicate.truthOfAny, h.isNull]

/-- An empty list of values leaves no row out, any other one those that hold a common text. -/
theorem Sees.truth_notIn (operands : List String) :
    ((ArrayTest.notIn operands).predicate f).truth v
      = if operands.isEmpty then some true
        else Truth.or (some cell.isNone) (Truth.not (cell.map fun texts =>
          operands.any fun operand => texts.contains operand)) := by
  rw [ArrayTest.predicate, arrayNotIn_strings]
  split
  · exact h.one
  · rw [h.truth_isNull_or_not, h.containsAny]

/-- A field differs from a text if it is null or does not hold the text. -/
theorem Sees.truth_differs (operand : String) :
    ((ArrayTest.differs operand).predicate f).truth v
      = Truth.or (some cell.isNone) (Truth.not (cell.map fun texts => texts.contains operand)) := by
  have hone := h.containsAny [operand]
  rw [List.map_singleton] at hone
  rw [ArrayTest.predicate, h.truth_isNull_or_not, hone]
  simp

end Sees

/-! ## Both kinds of columns -/

/-- Columns of the two kinds that keep the same texts are told apart by two constraints only: by an
empty list of values to hold, unless the columns hold nothing, and by a list to differ from, where
the text of this list is among the texts. -/
theorem admits_alike_iff (native plain : Compiler) (name : String) (cell : Option (List String))
    (test : ArrayTest) (texts document : Held) (rest rest' : Valuation)
    (hnative : native.schema.field? name = some (.arrayOf .string))
    (hplain : plain.schema.field? name = some .array)
    (hkey : Text.startsWith name "$" = false) (hpath : Text.contains name "." = false)
    (htexts : KeptAs (.arrayOf .string) cell texts) (hdocument : KeptAs .array cell document) :
    (native.Admits (truthOn name texts rest) [(name, test.constraint)]
        ↔ plain.Admits (truthOn name document rest') [(name, test.constraint)])
      ↔ ¬ test.TellsApart cell := by
  have hfield : native.fieldRef name = textsField name := by
    simp [Compiler.fieldRef, hpath, hnative, textsField]
  have hfield' : plain.fieldRef name = documentField name := by
    simp [Compiler.fieldRef, hpath, hplain, documentField]
  rw [admits_arrayTest_iff test hkey (by rw [hfield]; rfl) (by rw [hfield]; rfl), hfield,
    admits_arrayTest_iff test hkey (by rw [hfield']; rfl) (by rw [hfield']; rfl), hfield',
    keptAs_texts_iff.mp htexts, keptAs_document_iff.mp hdocument]
  have hsees := sees_texts name cell rest
  have hsees' := sees_document name cell rest'
  -- only the last two constraints are not settled by what is seen of the field
  cases test with
  | isIn operands => simp [hsees.truth_isIn, hsees'.truth_isIn, ArrayTest.TellsApart]
  | notIn operands => simp [hsees.truth_notIn, hsees'.truth_notIn, ArrayTest.TellsApart]
  | differs operand => simp [hsees.truth_differs, hsees'.truth_differs, ArrayTest.TellsApart]
  | containsAll operands =>
    rw [ArrayTest.predicate, ArrayTest.predicate, truth_containsAll_texts, Json.map_textForm_str,
      truth_containsAll_document (read?_ofStrings operands)]
    cases cell with
    | none => simp [ColumnTest.on, ArrayTest.TellsApart]
    | some texts =>
      simp only [Option.elim_some, ColumnTest.on, arrayContainsAll_texts]
      cases operands <;> simp [ArrayTest.TellsApart]
  | differsFromList operands =>
    rw [ArrayTest.predicate, ArrayTest.predicate, hsees.truth_isNull_or_not,
      hsees'.truth_isNull_or_not, truth_containsAny_texts,
      truth_containsAny_document (read?_singleton operands)]
    cases cell with
    | none => simp [ColumnTest.on, ArrayTest.TellsApart]
    | some texts =>
      have htext : (Json.ofStrings operands).textForm = (Json.ofStrings operands).compact := rfl
      simp only [Option.elim_some, ColumnTest.on, arrayContains_list]
      simp [ArrayTest.TellsApart, htext, Truth.not]

/-- Posts whose tags have a type. -/
def posts (type : FieldType) : Compiler :=
  .ofSchema ((Schema.ofClass "Post").withField "tags" type) false ⟨0, 0⟩

/-- Tags of which none is asked for are had by a post in an array of texts only. -/
theorem emptyAll_tells_apart :
    KeptAs (.arrayOf .string) (some ["a"]) (.texts ["a"])
      ∧ KeptAs .array (some ["a"]) (.document (.arr [.str "a"]))
      ∧ ¬ ((posts (.arrayOf .string)).Admits (truthOn "tags" (.texts ["a"]) fun _ => none)
            [("tags", (ArrayTest.containsAll []).constraint)]
          ↔ (posts .array).Admits (truthOn "tags" (.document (.arr [.str "a"])) fun _ => none)
            [("tags", (ArrayTest.containsAll []).constraint)]) := by
  refine ⟨keptAs_texts_iff.mpr rfl, keptAs_document_iff.mpr rfl, ?_⟩
  have hnative : ((posts (.arrayOf .string)).fieldRef "tags") = textsField "tags" := rfl
  have hplain : ((posts .array).fieldRef "tags") = documentField "tags" := rfl
  rw [admits_arrayTest_iff _ rfl rfl rfl, admits_arrayTest_iff _ rfl rfl rfl, hnative, hplain,
    ArrayTest.predicate, ArrayTest.predicate, truth_containsAll_texts,
    truth_containsAll_document (read?_ofStrings [])]
  decide

/-- Posts without some tags are selected alike. -/
theorem notIn_alike :
    KeptAs (.arrayOf .string) (some ["a", "b"]) (.texts ["a", "b"])
      ∧ KeptAs .array (some ["a", "b"]) (.document (.arr [.str "a", .str "b"]))
      ∧ ((posts (.arrayOf .string)).Admits (truthOn "tags" (.texts ["a", "b"]) fun _ => none)
            [("tags", (ArrayTest.notIn ["b", "c"]).constraint)]
          ↔ (posts .array).Admits
            (truthOn "tags" (.document (.arr [.str "a", .str "b"])) fun _ => none)
            [("tags", (ArrayTest.notIn ["b", "c"]).constraint)]) := by
  have htexts : KeptAs (.arrayOf .string) (some ["a", "b"]) (.texts ["a", "b"]) :=
    keptAs_texts_iff.mpr rfl
  have hdocument : KeptAs .array (some ["a", "b"]) (.document (.arr [.str "a", .str "b"])) :=
    keptAs_document_iff.mpr rfl
  refine ⟨htexts, hdocument, ?_⟩
  have halike := admits_alike_iff (posts (.arrayOf .string)) (posts .array) "tags"
    (some ["a", "b"]) (.notIn ["b", "c"]) _ _ (fun _ => none) (fun _ => none) rfl rfl rfl rfl
    htexts hdocument
  exact halike.mpr id

end ObjectStore.Query
