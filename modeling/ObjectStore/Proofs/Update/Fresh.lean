import ObjectStore.Proofs.Engine.Lists
import ObjectStore.Proofs.Json.Paths
import ObjectStore.Proofs.Objects.Records
import ObjectStore.Proofs.Update.Columns

/-!
# Operators on a fresh object

An operator of a new object is replaced by a value before the object is stored (`flatten`), and an
operator of an update becomes an expression on its column. Where nothing was, both leave the same,
but for additions without repetition: the expression leaves out the elements that come again, and
the value that stands for the operator holds them all (`shown_documents_iff`). A list of texts also
goes through a document on its way, where the engine writes the elements that are no texts
(`shown_texts_iff`).

So new objects and updates agree if and only if no such operator has an element twice
(`flatten_agrees_iff`).
-/

namespace ObjectStore

/-- An operator that is found by a tag has it. -/
theorem ListOperator.tag_of_ofTag? {tag : String} {operator : ListOperator}
    (h : ofTag? tag = some operator) : operator.tag = tag := by
  unfold ofTag? at h
  split at h
  · obtain rfl := Option.some.inj h
    rfl
  · obtain rfl := Option.some.inj h
    rfl
  · obtain rfl := Option.some.inj h
    rfl
  · cases h

namespace Update

open Engine Json Result

variable {value amount : Json} {fresh : Option Json} {document flat : Object} {key : String}
  {type : FieldType} {column : ColumnType} {operator : ListOperator} {items : List Json} {sql : Sql}
  {write : Content → String} {cell : Json}

/-! ## What a value stands for -/

/-- What a value of a new object stands for. -/
inductive StandsFor (value : Json) : Option Json → Prop
  | literal (htag : value.opTag? = none) : StandsFor value (some value)
  | delete (htag : value.opTag? = some "Delete") : StandsFor value none
  | increment {amount : Json} (htag : value.opTag? = some "Increment")
    (hamount : value.get? "amount" = some amount) (hnumber : amount.isNumber = true) :
    StandsFor value (some amount)
  | list {operator : ListOperator} {items : List Json} (htag : value.opTag? = some operator.tag)
    (hitems : elements value = .ok items) : StandsFor value (some (.arr (operator.onNothing items)))

/-- A value that is replaced stands for what it is replaced by. -/
theorem standsFor_of_freshOf (h : freshOf value = .ok fresh) : StandsFor value fresh := by
  unfold freshOf at h
  split at h
  next tag htag =>
    unfold freshValue at h
    split at h
    next operator hoperator =>
      obtain ⟨items, hitems, h⟩ := bind_eq_ok.mp h
      obtain rfl := pure_eq_ok.mp h
      exact .list (htag.trans (congrArg some (ListOperator.tag_of_ofTag? hoperator).symm)) hitems
    · obtain rfl := Except.ok.inj h
      exact .delete htag
    · split at h
      next amount hamount =>
        obtain rfl := Except.ok.inj h
        obtain ⟨hamount, hnumber⟩ := Option.filter_eq_some_iff.mp hamount
        exact .increment htag hamount hnumber
      · cases h
    · cases h
  next htag =>
    obtain rfl := Except.ok.inj h
    exact .literal htag

/-- What stands for a value is no operator. -/
theorem StandsFor.opTag? {present : Json} (h : StandsFor value (some present)) :
    present.opTag? = none := by
  cases h with
  | literal htag => exact htag
  | increment _ _ hnumber =>
    cases present with
    | int | double => rfl
    | null | bool | str | arr | obj => cases hnumber
  | list => rfl

/-- In a fresh object is, under each key, what the value under that key stands for. -/
theorem get?_flatten (hdocument : document.Sorted) (hflat : flatten document = .ok flat)
    (hmem : (key, value) ∈ document) (hfresh : freshOf value = .ok fresh) :
    Dict.get? flat key = fresh := by
  have hfound {present : Json} (h : (key, present) ∈ flat) : fresh = some present := by
    obtain ⟨other, hother, hpresent⟩ := (mem_flatten hflat).mp h
    have hsame := (hdocument.get?_eq_some_iff.mpr hother).symm.trans
      (hdocument.get?_eq_some_iff.mpr hmem)
    obtain rfl := Option.some.inj hsame
    exact Except.ok.inj (hfresh.symm.trans hpresent)
  cases hget : Dict.get? flat key with
  | some present => exact (hfound (Dict.mem_of_get? hget)).symm
  | none =>
    cases fresh with
    | none => rfl
    | some present =>
      have hkey : (key, present) ∈ flat := (mem_flatten hflat).mpr ⟨value, hmem, hfresh⟩
      have hcontains := Dict.contains_iff_mem_keys.mpr (List.mem_map_of_mem hkey)
      rw [Dict.contains, hget] at hcontains
      cases hcontains

/-! ## What is left where nothing was -/

/-- What may be shown of a column that held nothing after an update with a value. -/
def ShownUpdated (write : Content → String) (key : String) (type : FieldType) (column : ColumnType)
    (value cell : Json) : Prop :=
  ∃ sql, expression key type value = .ok sql ∧ ShownOnNothing write column key sql cell

/-- What may be shown of a column of a new object, with or without a value for it. -/
def ShownCreated (type : FieldType) (column : ColumnType) (fresh : Option Json) (cell : Json) :
    Prop :=
  match fresh with
  | none => cell = .null
  | some value => ∃ sql, type.encode value = .ok (some sql) ∧ Holds column sql cell

/-- An operator meets a column that it is made for: numbers are added to numbers, and elements to
lists and to documents. -/
structure Meets (type : FieldType) (value : Json) : Prop where
  number : value.opTag? = some "Increment" → type.column? = some .double
  list : ∀ operator : ListOperator, value.opTag? = some operator.tag →
    type.column? = some .textArray ∨ type.column? = some .json ∧ type ≠ .bytes

/-- A value means the same on a new object and on an update where nothing was: if it adds elements
without repetition, no two of them say the same, and in a list of texts the engine writes each as it
is stored. -/
def Agrees (write : Content → String) (column : ColumnType) (value : Json) : Prop :=
  value.opTag? = some "AddUnique" → ∀ items, elements value = .ok items →
    (items.map Json.content).Nodup
      ∧ (column = .textArray → ∀ item ∈ items, itemText write item.content = .str item.textForm)

/-- A value to store begins with something bound, if it is not `NULL` and no point. -/
theorem onNothing?_encode (h : type.encode value = .ok (some sql)) :
    onNothing? write column key sql = none := by
  unfold FieldType.encode at h
  split at h
  · obtain rfl := Option.some.inj (Except.ok.inj h)
    rfl
  · split at h
    · cases Except.ok.inj h
    next stored _ =>
      obtain ⟨encoded, hencoded, h⟩ := map_eq_ok.mp h
      obtain rfl := Option.some.inj h
      cases stored with
      | text | double | boolean =>
        obtain rfl := Except.ok.inj hencoded
        rfl
      | timestamp =>
        simp only [FieldType.encodeColumn, FieldType.encodeDate] at hencoded
        split at hencoded
        · obtain rfl := Except.ok.inj hencoded
          rfl
        · cases hencoded
      | json =>
        obtain rfl := FieldType.encodeDocument_eq_ok hencoded
        rfl
      | textArray =>
        simp only [FieldType.encodeColumn, FieldType.encodeTexts] at hencoded
        split at hencoded
        · obtain rfl := Except.ok.inj hencoded
          rfl
        · cases hencoded
      | point =>
        simp only [FieldType.encodeColumn, FieldType.encodePoint] at hencoded
        split at hencoded
        · obtain ⟨_, _, hencoded⟩ := bind_eq_ok.mp hencoded
          obtain rfl := pure_eq_ok.mp hencoded
          rfl
        · cases hencoded
      | polygon =>
        simp only [FieldType.encodeColumn, FieldType.encodePolygon] at hencoded
        split at hencoded
        · obtain ⟨_, _, hencoded⟩ := bind_eq_ok.mp hencoded
          obtain rfl := pure_eq_ok.mp hencoded
          rfl
        · cases hencoded

/-- What an update shows is what its expression may come to. -/
theorem shownUpdated_iff (h : expression key type value = .ok sql) :
    ShownUpdated write key type column value cell ↔ ShownOnNothing write column key sql cell := by
  refine ⟨?_, fun hshown => ⟨sql, h, hshown⟩⟩
  rintro ⟨other, hother, hshown⟩
  obtain rfl := Except.ok.inj (h.symm.trans hother)
  exact hshown

/-- What a new object shows is what is stored for its value. -/
theorem shownCreated_iff (h : type.encode value = .ok (some sql)) :
    ShownCreated type column (some value) cell ↔ Holds column sql cell := by
  refine ⟨?_, fun hshown => ⟨sql, h, hshown⟩⟩
  rintro ⟨other, hother, hshown⟩
  obtain rfl := Option.some.inj (Except.ok.inj (h.symm.trans hother))
  exact hshown

/-- A document is shown as what it says. -/
theorem holds_compact (hrepresentable : value.Representable) (hcanonical : value.Canonical) :
    Holds .json (Sql.bindJson value.compact) cell ↔ cell.content = value.content := by
  rw [holds_document, readAll?_compact hrepresentable]
  constructor
  · rintro ⟨v, hv, h⟩
    obtain rfl := Option.some.inj hv
    rwa [canonical_eq_self _ hcanonical] at h
  · intro h
    exact ⟨value, rfl, by rwa [canonical_eq_self _ hcanonical]⟩

/-- A value that is no operator is stored as it is by both. -/
theorem shownUpdated_literal (htag : value.opTag? = none) :
    ShownUpdated write key type column value cell ↔ ShownCreated type column (some value) cell := by
  refine exists_congr ?_
  intro sql
  rw [expression_literal_iff htag]
  refine and_congr_right fun hencoded => or_iff_right ?_
  intro hnothing
  rw [onNothing?_encode hencoded] at hnothing
  cases hnothing

/-- A deletion leaves nothing, as no value does. -/
theorem shownUpdated_delete (htag : value.opTag? = some "Delete") :
    ShownUpdated write key type column value cell ↔ ShownCreated type column none cell := by
  have hexpression : expression key type value = .ok (Sql.text "NULL") := by
    simp [expression, htag, operatorExpression, ListOperator.ofTag?]
  have hnothing : onNothing? write column key (Sql.text "NULL") = none := rfl
  rw [shownUpdated_iff hexpression, ShownOnNothing, hnothing]
  exact (or_iff_right fun h => Option.some_ne_none _ h.symm).trans holds_nothing

/-- A sum with nothing is shown as the amount. -/
theorem shownUpdated_increment (htag : value.opTag? = some "Increment")
    (hamount : value.get? "amount" = some amount) (hnumber : amount.isNumber = true)
    (hcolumn : type.column? = some .double) :
    ShownUpdated write key type .double value cell
      ↔ ShownCreated type .double (some amount) cell := by
  obtain ⟨x, hx⟩ : ∃ x, amount.toFloat? = some x := by
    cases amount with
    | int | double => exact ⟨_, rfl⟩
    | null | bool | str | arr | obj => cases hnumber
  have hexpression : expression key type value = .ok (Sql.text "COALESCE(" ++ Sql.name key
      ++ Sql.text ", 0) + " ++ Sql.bind (.double x)) := by
    simp [expression, htag, operatorExpression, ListOperator.ofTag?, Update.amount, hamount, hx]
  have hencoded : type.encode amount = .ok (some (Sql.bind (.double x))) := by
    rw [FieldType.encode, hcolumn]
    cases amount with
    | int | double =>
      obtain rfl := Option.some.inj hx
      rfl
    | null | bool | str | arr | obj => cases hnumber
  have hnothing : onNothing? write .double key (Sql.text "COALESCE(" ++ Sql.name key
      ++ Sql.text ", 0) + " ++ Sql.bind (.double x)) = some (.number (Decimal.value x)) := by
    rw [← value_zero_add x]
    exact if_pos ⟨rfl, rfl⟩
  rw [shownUpdated_iff hexpression, shownOnNothing_iff rfl (by decide) (by decide), hnothing,
    Option.some.injEq, eq_comm, ← holds_number]
  exact (shownCreated_iff hencoded).symm

/-! ## Lists -/

/-- The elements of an operator are as readable as the operator. -/
theorem readable_elements (hrepresentable : value.Representable) (hcanonical : value.Canonical)
    (h : elements value = .ok items) :
    (Json.arr items).Representable ∧ (Json.arr items).Canonical := by
  unfold elements at h
  split at h
  next found hfound =>
    obtain rfl := Except.ok.inj h
    obtain ⟨list, hlist, hitems⟩ := Option.bind_eq_some_iff.mp hfound
    cases list with
    | arr =>
      obtain rfl := Option.some.inj hitems
      cases hrepresentable with
      | obj hinside =>
        cases hcanonical with
        | obj _ hinside' =>
          exact ⟨hinside _ (Dict.mem_of_get? hlist), hinside' _ (Dict.mem_of_get? hlist)⟩
      | null | bool | int | double | str | arr => cases hlist
    | null | bool | int | double | str | obj => cases hitems
  next => cases h

/-- What a list operator leaves of its elements where nothing was. -/
def gathered (operator : ListOperator) (contents : List Content) : List Content :=
  match operator with
  | .add => contents
  | .addUnique => firsts contents
  | .remove => []

/-- The elements of a list are read back from its text. -/
theorem itemsIn?_compact (hrepresentable : (Json.arr items).Representable)
    (hcanonical : (Json.arr items).Canonical) :
    itemsIn? (Json.arr items).compact = some (items.map Json.content) := by
  rw [itemsIn?, Content.read?_compact hrepresentable hcanonical, content, contentItems_eq_map]

/-- The expression of a list operator on a column of documents gathers the elements. -/
theorem onNothing?_documents (operator : ListOperator)
    (hrepresentable : (Json.arr items).Representable) (hcanonical : (Json.arr items).Canonical) :
    onNothing? write .json key (listExpression (Sql.name key) false operator items)
      = some (.arr (gathered operator (items.map Json.content))) := by
  have hread := itemsIn?_compact hrepresentable hcanonical
  cases operator with
  | add | addUnique | remove =>
    simp [listExpression, ListOperator.function, Sql.bindJson, Sql.bindText, Sql.bind, Sql.text,
      Sql.name, onNothing?, namedFunction?, listFunction?, hread, gathered]

/-- What a list operator leaves of its elements in a list of texts where nothing was. -/
def gatheredTexts (write : Content → String) (operator : ListOperator) (items : List Json) :
    List Content :=
  match operator with
  | .add => (items.map textForm).map .str
  | operator => (gathered operator (items.map Json.content)).map (itemText write)

/-- The expression of a list operator on a column of texts gathers the elements as texts. -/
theorem onNothing?_texts (operator : ListOperator)
    (hrepresentable : (Json.arr items).Representable) (hcanonical : (Json.arr items).Canonical) :
    onNothing? write .textArray key (listExpression (Sql.name key) true operator items)
      = some (.arr (gatheredTexts write operator items)) := by
  have hread := itemsIn?_compact hrepresentable hcanonical
  cases operator with
  | add =>
    simp [listExpression, FieldType.textArray, Sql.bindText, Sql.bind, Sql.text, Sql.name,
      onNothing?, Sql.readArray_arrayLiteral, gatheredTexts]
  | addUnique | remove =>
    simp [listExpression, ListOperator.function, Sql.bindJson, Sql.bindText, Sql.bind, Sql.text,
      Sql.name, onNothing?, namedFunction?, listFunction?, hread, gathered, gatheredTexts]

/-- A list operator becomes its expression on the column. -/
theorem expression_list (htag : value.opTag? = some operator.tag)
    (hitems : elements value = .ok items) : expression key type value
      = .ok (listExpression (Sql.name key) (type.column? = some .textArray) operator items) := by
  rw [expression, htag]
  cases operator <;>
    simp [operatorExpression, ListOperator.tag, ListOperator.ofTag?, hitems, bind, Except.bind,
      pure, Except.pure]

theorem shownOnNothing_list {isTextArray : Bool} :
    ShownOnNothing write column key (listExpression (Sql.name key) isTextArray operator items) cell
      ↔ onNothing? write column key (listExpression (Sql.name key) isTextArray operator items)
        = some cell.content := by
  cases operator <;> cases isTextArray <;>
    exact shownOnNothing_iff rfl (by decide) (by decide)

/-- Two lists are shown alike only if they say the same. -/
theorem forall_shown_iff {contents : List Content} (other : Json) :
    (∀ cell : Json, some (Content.arr contents) = some cell.content ↔ cell.content = other.content)
      ↔ .arr contents = other.content := by
  constructor
  · exact fun h => Option.some.inj ((h other).mpr rfl)
  · rintro h cell
    rw [h, Option.some.injEq, eq_comm]

/-- A list operator on a column of documents means the same where no elements come again. -/
theorem shown_documents_iff (hcolumn : type.column? = some .json) (hbytes : type ≠ .bytes)
    (htag : value.opTag? = some operator.tag) (hitems : elements value = .ok items)
    (hrepresentable : (Json.arr items).Representable) (hcanonical : (Json.arr items).Canonical) :
    (∀ cell, ShownUpdated write key type .json value cell
      ↔ ShownCreated type .json (some (.arr (operator.onNothing items))) cell)
      ↔ (operator = .addUnique → (items.map Json.content).Nodup) := by
  have hreadable : (Json.arr (operator.onNothing items)).Representable
      ∧ (Json.arr (operator.onNothing items)).Canonical := by
    cases operator with
    | add | addUnique => exact ⟨hrepresentable, hcanonical⟩
    | remove =>
      exact ⟨.arr fun _ h => absurd h List.not_mem_nil, .arr fun _ h => absurd h List.not_mem_nil⟩
  have hencoded : type.encode (.arr (operator.onNothing items))
      = .ok (some (Sql.bindJson (Json.arr (operator.onNothing items)).compact)) := by
    simp [FieldType.encode, Json.isNull, hcolumn, FieldType.encodeColumn, FieldType.encodeDocument,
      hbytes, Except.map, pure, Except.pure]
  have hcreated (cell : Json) :
      ShownCreated type .json (some (.arr (operator.onNothing items))) cell
        ↔ cell.content = (Json.arr (operator.onNothing items)).content := by
    rw [shownCreated_iff hencoded, holds_compact hreadable.1 hreadable.2]
  have hupdated (cell : Json) : ShownUpdated write key type .json value cell
      ↔ some (.arr (gathered operator (items.map Json.content))) = some cell.content := by
    rw [shownUpdated_iff (expression_list htag hitems), shownOnNothing_list, hcolumn]
    simp [onNothing?_documents operator hrepresentable hcanonical]
  simp only [hcreated, hupdated]
  rw [forall_shown_iff, content, contentItems_eq_map, Content.arr.injEq]
  cases operator with
  | add | remove => exact iff_of_true rfl fun h => by cases h
  | addUnique =>
    have hfirsts := map_firsts_eq_iff items Json.content id Json.content
    rw [List.map_id] at hfirsts
    exact hfirsts.trans ⟨fun h _ => h.1, fun h => ⟨h rfl, fun _ _ => rfl⟩⟩

/-- A list operator on a list of texts means the same where no elements come again, and the engine
writes them as they are stored. -/
theorem shown_texts_iff (hcolumn : type.column? = some .textArray)
    (htag : value.opTag? = some operator.tag) (hitems : elements value = .ok items)
    (hrepresentable : (Json.arr items).Representable) (hcanonical : (Json.arr items).Canonical) :
    (∀ cell, ShownUpdated write key type .textArray value cell
      ↔ ShownCreated type .textArray (some (.arr (operator.onNothing items))) cell)
      ↔ (operator = .addUnique → (items.map Json.content).Nodup
        ∧ ∀ item ∈ items, itemText write item.content = .str item.textForm) := by
  have hencoded : type.encode (.arr (operator.onNothing items))
      = .ok (some (FieldType.textArray (operator.onNothing items))) := by
    simp [FieldType.encode, Json.isNull, hcolumn, FieldType.encodeColumn, FieldType.encodeTexts,
      Json.arr?, Except.map]
  have hcreated (cell : Json) :
      ShownCreated type .textArray (some (.arr (operator.onNothing items))) cell
        ↔ cell.content = (ofStrings ((operator.onNothing items).map textForm)).content := by
    rw [shownCreated_iff hencoded, FieldType.textArray, holds_texts, content_ofStrings,
      ← eq_ofStrings_iff]
    constructor
    · rintro ⟨texts, htexts, rfl⟩
      rw [Sql.readArray_arrayLiteral, Option.some.injEq] at htexts
      rw [htexts]
    · rintro rfl
      exact ⟨_, Sql.readArray_arrayLiteral _, rfl⟩
  have hupdated (cell : Json) : ShownUpdated write key type .textArray value cell
      ↔ some (.arr (gatheredTexts write operator items)) = some cell.content := by
    rw [shownUpdated_iff (expression_list htag hitems), shownOnNothing_list, hcolumn]
    simp [onNothing?_texts operator hrepresentable hcanonical]
  simp only [hcreated, hupdated]
  rw [forall_shown_iff, content_ofStrings, Content.arr.injEq]
  cases operator with
  | add | remove => exact iff_of_true rfl fun h => by cases h
  | addUnique =>
    have hfirsts := map_firsts_eq_iff items Json.content (itemText write) (.str ∘ textForm)
    rw [ListOperator.onNothing, List.map_map]
    exact hfirsts.trans ⟨fun h _ => h, fun h => h rfl⟩

/-! ## New objects and updates -/

theorem agrees_iff (htag : value.opTag? = some operator.tag) (hitems : elements value = .ok items) :
    Agrees write column value ↔ (operator = .addUnique → (items.map Json.content).Nodup
      ∧ (column = .textArray → ∀ item ∈ items,
        itemText write item.content = .str item.textForm)) := by
  have hunique : value.opTag? = some "AddUnique" ↔ operator = .addUnique := by
    rw [htag]
    cases operator <;> simp [ListOperator.tag]
  rw [Agrees, hunique]
  refine forall_congr' fun _ => ⟨fun h => h items hitems, ?_⟩
  intro h other hother
  obtain rfl := Except.ok.inj (hitems.symm.trans hother)
  exact h

/-- No operator is left in a fresh object, and each of its members is what an update with the same
value would have stored where nothing was, unless the value adds elements without repetition: then
it is if and only if no two of the elements say the same, and in a list of texts the engine writes
each as it is stored. -/
theorem flatten_agrees_iff {s : Schema} {document flat : Object} (write : Content → String)
    (hcanonical : (Json.obj document).Canonical)
    (hrepresentable : (Json.obj document).Representable) (hflat : flatten document = .ok flat) :
    (∀ member ∈ flat, member.2.opTag? = none)
    ∧ ∀ key value type column, (key, value) ∈ document → Text.cut? '.' key = none →
      s.forStorage.field? key = some type → type.column? = some column → Meets type value →
      (∀ all, assignments s document = .ok all →
        ∃ sql, expression key type value = .ok sql ∧ (key, sql) ∈ all)
      ∧ ((∀ cell, ShownUpdated write key type column value cell
          ↔ ShownCreated type column (Dict.get? flat key) cell)
        ↔ Agrees write column value) := by
  have hsorted : document.Sorted := by
    cases hcanonical with
    | obj hsorted _ => exact hsorted
  refine ⟨?_, fun key value type column hmem hcut htype hcolumn hmeets => ⟨?_, ?_⟩⟩
  · intro member hmember
    obtain ⟨value, -, hfresh⟩ := (mem_flatten hflat).mp hmember
    exact (standsFor_of_freshOf hfresh).opTag?
  · intro all hall
    obtain ⟨a, hgathers, hall⟩ := gathers_of_assignments hall
    cases hgathers.contributes hall hmem with
    | whole _ htype' hsql hmem =>
      obtain rfl := Option.some.inj (htype.symm.trans htype')
      exact ⟨_, hsql, hmem⟩
    | nested hcut' => cases hcut.symm.trans hcut'
  · obtain ⟨fresh, hfresh⟩ := freshOf_of_flatten hflat hmem
    rw [get?_flatten hsorted hflat hmem hfresh]
    cases standsFor_of_freshOf hfresh with
    | literal htag =>
      refine iff_of_true (fun cell => shownUpdated_literal htag) ?_
      intro h
      cases htag.symm.trans h
    | delete htag =>
      refine iff_of_true (fun cell => shownUpdated_delete htag) ?_
      intro h
      exact absurd (Option.some.inj (htag.symm.trans h)) (by decide)
    | increment htag hamount hnumber =>
      obtain rfl := Option.some.inj (hcolumn.symm.trans (hmeets.number htag))
      refine iff_of_true (fun cell => shownUpdated_increment htag hamount hnumber hcolumn) ?_
      intro h
      exact absurd (Option.some.inj (htag.symm.trans h)) (by decide)
    | @list operator items htag hitems =>
      obtain ⟨hvalue, hvalue'⟩ : value.Representable ∧ value.Canonical := by
        cases hcanonical with
        | obj _ hinside =>
          cases hrepresentable with
          | obj hinside' => exact ⟨hinside' _ hmem, hinside _ hmem⟩
      obtain ⟨hitems', hitems''⟩ := readable_elements hvalue hvalue' hitems
      rw [agrees_iff htag hitems]
      rcases hmeets.list operator htag with htexts | ⟨hjson, hbytes⟩
      · obtain rfl := Option.some.inj (hcolumn.symm.trans htexts)
        rw [shown_texts_iff hcolumn htag hitems hitems' hitems'']
        simp
      · obtain rfl := Option.some.inj (hcolumn.symm.trans hjson)
        rw [shown_documents_iff hcolumn hbytes htag hitems hitems' hitems'']
        simp

/-- Posts with a list of texts, a list of anything, a number and a text. -/
def posts : Schema :=
  { className := "Post"
    fields := Dict.ofList
      [("items", .array), ("score", .number), ("tags", .arrayOf .string), ("title", .string)] }

/-- A literal and one operator of each kind. -/
def newPost : Object :=
  [("items", .obj [("__op", .str "Remove"), ("objects", .arr [.int 1])]),
    ("likes", .obj [("__op", .str "Delete")]),
    ("score", .obj [("__op", .str "Increment"), ("amount", .int 3)]),
    ("tags", .obj [("__op", .str "AddUnique"), ("objects", .ofStrings ["a", "b"])]),
    ("title", .str "x")]

theorem newPost_agrees :
    ∃ flat, flatten newPost = .ok flat ∧ (∀ member ∈ flat, member.2.opTag? = none)
      ∧ ∀ write cell, ShownUpdated write "tags" (.arrayOf .string) .textArray
          (.obj [("__op", .str "AddUnique"), ("objects", .ofStrings ["a", "b"])]) cell
        ↔ ShownCreated (.arrayOf .string) .textArray (Dict.get? flat "tags") cell := by
  obtain ⟨flat, hflat⟩ : ∃ flat, flatten newPost = .ok flat := ⟨_, rfl⟩
  have hagrees := fun write => flatten_agrees_iff (s := posts) write
    (canonical_of_isCanonical (by decide)) (representable_of_isRepresentable (by decide)) hflat
  refine ⟨flat, hflat, (hagrees fun _ => "").1, ?_⟩
  intro write
  refine ((hagrees write).2 "tags" _ _ _ (by simp [newPost]) (by decide) rfl rfl ⟨?_, ?_⟩).2.mpr ?_
  · exact fun h => absurd (Option.some.inj h) (by decide)
  · exact fun _ _ => .inl rfl
  · rintro - items ⟨⟩
    refine ⟨by decide, ?_⟩
    intro _ item hitem
    obtain ⟨text, -, rfl⟩ := List.mem_map.mp hitem
    rfl

/-- An element that comes again stands in the list of a new object twice, and once after an
update. -/
theorem repeated_element_stays :
    flatten [("items", .obj [("__op", .str "AddUnique"), ("objects", .ofStrings ["a", "a"])])]
      = .ok [("items", .ofStrings ["a", "a"])]
    ∧ ∀ write cell,
      (ShownUpdated write "items" .array .json
          (.obj [("__op", .str "AddUnique"), ("objects", .ofStrings ["a", "a"])]) cell
        ↔ cell = .ofStrings ["a"])
      ∧ (ShownCreated .array .json (some (.ofStrings ["a", "a"])) cell
        ↔ cell = .ofStrings ["a", "a"]) := by
  have hrepresentable : (Json.ofStrings ["a", "a"]).Representable := representable_ofStrings _
  have hcanonical : (Json.ofStrings ["a", "a"]).Canonical := canonical_ofStrings _
  have htag : (Json.obj [("__op", .str "AddUnique"), ("objects", .ofStrings ["a", "a"])]).opTag?
      = some ListOperator.addUnique.tag := rfl
  have hencoded : FieldType.array.encode (.ofStrings ["a", "a"])
      = .ok (some (Sql.bindJson (Json.ofStrings ["a", "a"]).compact)) := rfl
  refine ⟨rfl, fun write cell => ⟨?_, ?_⟩⟩
  · rw [shownUpdated_iff (expression_list htag rfl), shownOnNothing_list]
    refine (Eq.congr_left (onNothing?_documents .addUnique hrepresentable hcanonical)).trans ?_
    rw [Option.some.injEq, eq_comm, eq_ofStrings_iff]
    rfl
  · rw [shownCreated_iff hencoded, holds_compact hrepresentable hcanonical, eq_ofStrings_iff,
      content_ofStrings]

end Update

end ObjectStore
