import ObjectStore.Proofs.Dict
import ObjectStore.Proofs.Json.Canonical
import ObjectStore.Proofs.Result
import ObjectStore.Proofs.Update.Readable
import ObjectStore.Update.Assignment

/-!
# Which columns an update assigns

A key of an update names a column, or with a dot in it a place inside the document of one. Whole
columns are assigned where their keys come, and the changes below a column are folded into one
assignment that comes at the end. The two kinds are gathered apart: the step lemma `Gathers.assign`
tells for each what one more member adds, and so the assignments are known at the end of a run
(`gathers_of_assignments`).

Nothing keeps a column from being assigned in both ways. So each column is assigned once only if no
key that names a column stands beside keys that lead into it (`assigns_once_iff`).
-/

namespace ObjectStore.Update

open Result

variable {s : Schema} {sql base rest : Sql} {column key : String} {token : Token}
  {update : Object} {member : String × Json}

/-! ## The columns in a fragment -/

/-- The column that is assigned from a token on: a name that an equals sign follows. -/
def assignedAt? : Token → Sql → Option String
  | .name column, .text sign :: _ => if sign = " = " then some column else none
  | _, _ => none

/-- The columns that a fragment assigns, in order. -/
def assignedColumns : Sql → List String
  | [] => []
  | token :: rest => (assignedAt? token rest).toList ++ assignedColumns rest

/-- A fragment for a value: no equals sign stands in it. -/
def IsValue (sql : Sql) : Prop := Token.text " = " ∉ sql

/-- Two fragments in a row make a value if both do. -/
theorem isValue_append {a b : Sql} : IsValue (a ++ b) ↔ IsValue a ∧ IsValue b := by
  rw [IsValue, List.mem_append, not_or]
  rfl

/-- A text that is no equals sign may stand in a value. -/
theorem isValue_text {s : String} (h : s ≠ " = ") : IsValue (Sql.text s) := by
  simpa [IsValue, Sql.text] using Ne.symm h

/-- A bound value is a value. -/
theorem isValue_bind (value : Param) : IsValue (Sql.bind value) := by
  simp [IsValue, Sql.bind]

theorem isValue_bindText (s : String) : IsValue (Sql.bindText s) := isValue_bind _

/-- A bound document is a value. -/
theorem isValue_bindJson (s : String) : IsValue (Sql.bindJson s) :=
  isValue_append.mpr ⟨isValue_bindText s, isValue_text (by decide)⟩

/-- Without an equals sign behind it nothing is assigned. -/
theorem assignedAt?_eq_none (h : rest.head? ≠ some (.text " = ")) :
    assignedAt? token rest = none := by
  unfold assignedAt?
  split
  next sign _ =>
    rw [if_neg]
    rintro rfl
    exact h rfl
  next => rfl

/-- A value assigns nothing. -/
theorem assignedColumns_append (h : IsValue sql) (hrest : rest.head? ≠ some (.text " = ")) :
    assignedColumns (sql ++ rest) = assignedColumns rest := by
  induction sql with
  | nil => rfl
  | cons token sql ih =>
    rw [IsValue, List.mem_cons, not_or] at h
    -- the equals sign is looked for behind each token of the value, the last of which is followed
    -- by `rest`
    have hnext : (sql ++ rest).head? ≠ some (.text " = ") := by
      cases sql with
      | nil => exact hrest
      | cons next sql =>
        intro heq
        exact h.2 (Option.some.inj heq ▸ List.mem_cons_self)
    rw [List.cons_append, assignedColumns, assignedAt?_eq_none hnext, ih h.2]
    rfl

/-- Assignments of values assign their columns. -/
theorem assignedColumns_assignmentSql {all : List (String × Sql)}
    (h : ∀ entry ∈ all, IsValue entry.2) :
    assignedColumns (assignmentSql all) = all.map Prod.fst := by
  induction all with
  | nil => rfl
  | cons entry others ih =>
    obtain ⟨column, value⟩ := entry
    obtain ⟨hvalue, hothers⟩ := List.forall_mem_cons.mp h
    cases others with
    | nil =>
      have hend : assignedColumns (value ++ []) = [] :=
        assignedColumns_append hvalue (by simp)
      rw [List.append_nil] at hend
      exact congrArg (column :: ·) hend
    | cons next others =>
      -- a comma and the next column come after the value
      have hnext : assignedColumns (value ++ (Sql.text ", " ++ assignmentSql (next :: others)))
          = (next :: others).map Prod.fst := by
        rw [assignedColumns_append hvalue (by simp [Sql.text]), ← ih hothers]
        refine assignedColumns_append (isValue_text (by decide)) ?_
        cases others <;> simp [assignmentSql, Sql.join, Sql.name]
      have hsql : assignmentSql ((column, value) :: next :: others)
          = Sql.name column ++ Sql.text " = " ++ (value ++ (Sql.text ", "
            ++ assignmentSql (next :: others))) := by
        simp [assignmentSql, Sql.join]
      rw [hsql, List.map_cons, ← hnext]
      rfl

/-! ## Expressions are values -/

/-- What is stored in a column of any type is a value. -/
theorem isValue_encodeColumn {type : FieldType} {value : Json} {column : ColumnType}
    (h : type.encodeColumn value column = .ok sql) : IsValue sql := by
  have hcast {s cast : String} (hcast : cast ≠ " = ") : IsValue (Sql.bindText s ++ Sql.text cast) :=
    isValue_append.mpr ⟨isValue_bindText s, isValue_text hcast⟩
  cases column with
  | text | double | boolean =>
    obtain rfl := Except.ok.inj h
    exact isValue_bind _
  | timestamp =>
    simp only [FieldType.encodeColumn, FieldType.encodeDate] at h
    split at h
    · obtain rfl := Except.ok.inj h
      exact hcast (by decide)
    · cases h
  | json =>
    obtain rfl := FieldType.encodeDocument_eq_ok h
    exact isValue_bindJson _
  | textArray =>
    simp only [FieldType.encodeColumn, FieldType.encodeTexts] at h
    split at h
    · obtain rfl := Except.ok.inj h
      exact hcast (by decide)
    · cases h
  | point =>
    simp only [FieldType.encodeColumn, FieldType.encodePoint] at h
    split at h
    · obtain ⟨_, _, h⟩ := bind_eq_ok.mp h
      obtain rfl := pure_eq_ok.mp h
      simp [IsValue, GeoPoint.sql, Sql.text, Sql.bind]
    · cases h
  | polygon =>
    simp only [FieldType.encodeColumn, FieldType.encodePolygon] at h
    split at h
    · obtain ⟨_, _, h⟩ := bind_eq_ok.mp h
      obtain rfl := pure_eq_ok.mp h
      exact hcast (by decide)
    · cases h

/-- What a value of any type is stored as is a value. -/
theorem isValue_encode {type : FieldType} {value : Json} (h : type.encode value = .ok (some sql)) :
    IsValue sql := by
  unfold FieldType.encode at h
  split at h
  · obtain rfl := Option.some.inj (Except.ok.inj h)
    exact isValue_text (by decide)
  · split at h
    · cases Except.ok.inj h
    · obtain ⟨encoded, hencoded, h⟩ := map_eq_ok.mp h
      obtain rfl := Option.some.inj h
      exact isValue_encodeColumn hencoded

/-- What an operator on a list assigns is a value. -/
theorem isValue_listExpression (name : String) (isTextArray : Bool) (operator : ListOperator)
    (elements : List Json) :
    IsValue (listExpression (Sql.name name) isTextArray operator elements) := by
  unfold listExpression
  dsimp only
  split
  · split
    · simp [IsValue, FieldType.textArray, Sql.text, Sql.name, Sql.bindText, Sql.bind]
    · cases operator <;>
        simp [IsValue, ListOperator.function, Sql.text, Sql.name, Sql.bindJson, Sql.bindText,
          Sql.bind]
  · cases operator <;>
      simp [IsValue, ListOperator.function, Sql.text, Sql.name, Sql.bindJson, Sql.bindText,
        Sql.bind]

/-- A literal is assigned as it is stored. -/
theorem expression_literal_iff {name : String} {type : FieldType} {value : Json}
    (htag : value.opTag? = none) :
    expression name type value = .ok sql ↔ type.encode value = .ok (some sql) := by
  rw [expression, htag]
  constructor
  · intro h
    obtain ⟨encoded, hencoded, h⟩ := bind_eq_ok.mp h
    split at h
    · obtain rfl := pure_eq_ok.mp h
      exact hencoded
    · cases h
  · intro h
    rw [h]
    rfl

/-- What is assigned to a whole column is a value. -/
theorem isValue_expression {name : String} {type : FieldType} {value : Json}
    (h : expression name type value = .ok sql) : IsValue sql := by
  cases htag : value.opTag? with
  | none => exact isValue_encode ((expression_literal_iff htag).mp h)
  | some tag =>
    rw [expression, htag] at h
    change operatorExpression name type value tag = .ok sql at h
    -- lists, deletion, increment; any other operator fails
    unfold operatorExpression at h
    split at h
    · obtain ⟨elements, _, h⟩ := bind_eq_ok.mp h
      obtain rfl := pure_eq_ok.mp h
      exact isValue_listExpression name _ _ elements
    · obtain rfl := Except.ok.inj h
      exact isValue_text (by decide)
    · obtain ⟨amount, _, h⟩ := bind_eq_ok.mp h
      obtain rfl := pure_eq_ok.mp h
      simp [IsValue, Sql.text, Sql.name, Sql.bind]
    · cases h

/-- The document that changes are folded into is a value. -/
theorem isValue_objectBase (root : String) : IsValue (objectBase root) := by
  simp [IsValue, objectBase, Sql.text, Sql.name]

/-- A change inside a document makes a value of a value. -/
theorem isValue_pathExpression {root : String} {parts : List String} {value : Json}
    (hbase : IsValue base) (h : pathExpression base root parts value = .ok sql) : IsValue sql := by
  unfold IsValue at hbase
  unfold pathExpression at h
  split at h
  · obtain rfl := Except.ok.inj h
    simp [IsValue, hbase, bindPath, Sql.text, Sql.bindJson, Sql.bindText, Sql.bind]
  · obtain rfl := Except.ok.inj h
    simp [IsValue, hbase, bindPath, Sql.text, Sql.bindText, Sql.bind]
  · obtain ⟨amount, _, h⟩ := bind_eq_ok.mp h
    obtain rfl := pure_eq_ok.mp h
    simp [IsValue, hbase, bindPath, Sql.text, Sql.name, Sql.bindText, Sql.bind]
  · cases h

/-! ## What the members of an update are about -/

/-- The column that a key names, or into whose document it leads. -/
def columnOf (key : String) : String := ((Text.cut? '.' key).map Prod.fst).getD key

/-- Whether a member of an update is about a whole column. -/
def isWhole (member : String × Json) : Bool := (Text.cut? '.' member.1).isNone

/-- What a member of an update asks for at a place below a column. -/
def changeBelow? (column : String) (member : String × Json) : Option (List String × Json) :=
  match Text.cut? '.' member.1 with
  | some (root, rest) => if root = column then some (Text.split '.' rest, member.2) else none
  | none => none

/-- What an update asks for at the places below a column, in the order of its keys. -/
def changesBelow (column : String) (update : Object) : List (List String × Json) :=
  update.filterMap (changeBelow? column)

/-- The expression of a document with some changes folded into it. -/
def folded (column : String) (changes : List (List String × Json)) : Result Sql :=
  changes.foldlM (fun base change => pathExpression base column change.1 change.2)
    (objectBase column)

/-- A member is about a whole column if its key has no dot. -/
theorem isWhole_iff : isWhole member = true ↔ Text.cut? '.' member.1 = none :=
  Option.isNone_iff_eq_none

/-- A key without a dot names its column. -/
theorem columnOf_of_isWhole (h : isWhole member = true) : columnOf member.1 = member.1 := by
  rw [columnOf, isWhole_iff.mp h]
  rfl

/-- One more member may be one more change below a column, the last one. -/
theorem changesBelow_concat (column : String) (update : Object) (member : String × Json) :
    changesBelow column (update ++ [member])
      = changesBelow column update ++ (changeBelow? column member).toList := by
  rw [changesBelow, List.filterMap_append, changesBelow]
  rfl

/-- The last change is folded into the document with the others. -/
theorem folded_concat (column : String) (changes : List (List String × Json))
    (change : List String × Json) :
    folded column (changes ++ [change])
      = folded column changes >>= fun base => pathExpression base column change.1 change.2 := by
  rw [folded, List.foldlM_append]
  simp [folded]

/-- A document with changes folded into it is a value. -/
theorem isValue_folded {changes : List (List String × Json)} (h : folded column changes = .ok sql) :
    IsValue sql :=
  foldlM_induction (P := fun _ sql => IsValue sql) (isValue_objectBase column)
    (fun _ _ _ _ hbase hsql => isValue_pathExpression hbase hsql) h

/-- A column has changes below it if a key leads into it. -/
theorem changesBelow_ne_nil_iff :
    changesBelow column update ≠ []
      ↔ ∃ member ∈ update, isWhole member = false ∧ columnOf member.1 = column := by
  rw [changesBelow, Ne, List.filterMap_eq_nil_iff]
  push Not
  refine exists_congr fun member => and_congr_right fun _ => ?_
  unfold changeBelow? isWhole columnOf
  cases Text.cut? '.' member.1 with
  | none => simp
  | some parts => simp

/-! ## What is gathered -/

/-- The assignments that are gathered of some members: those of whole columns as they come, and for
each document the expression with the changes below its column. -/
structure Gathers (s : Schema) (seen : Object) (a : Assignments) : Prop where
  whole : List.Forall₂ (fun member entry => entry.1 = member.1 ∧
    ∃ type, s.field? member.1 = some type ∧ expression member.1 type member.2 = .ok entry.2)
      (seen.filter isWhole) a.whole
  sorted : a.nested.Sorted
  contains (column : String) : a.nested.contains column = true ↔ changesBelow column seen ≠ []
  folded (column : String) :
    folded column (changesBelow column seen)
      = .ok ((a.nested.get? column).getD (objectBase column))

/-- Nothing is gathered of no members. -/
theorem gathers_nil (s : Schema) : Gathers s [] {} where
  whole := .nil
  sorted := Dict.sorted_nil
  contains _ := iff_of_false Bool.false_ne_true (fun h => h rfl)
  folded _ := rfl

/-- One more member adds an assignment of its column, or a change to the document of its column. -/
theorem Gathers.assign {seen : Object} {a b : Assignments} (ha : Gathers s seen a)
    (h : a.assign s member = .ok b) : Gathers s (seen ++ [member]) b := by
  obtain ⟨key, value⟩ := member
  unfold Assignments.assign at h
  -- a key without a dot is a whole column, and changes no document
  cases hcut : Text.cut? '.' key with
  | none =>
    simp only [hcut] at h
    have hchange (column : String) : changesBelow column (seen ++ [(key, value)])
        = changesBelow column seen := by
      rw [changesBelow_concat, changeBelow?, hcut]
      exact List.append_nil _
    have hwhole : isWhole (key, value) = true := isWhole_iff.mpr hcut
    split at h
    · cases h
    next type htype =>
      obtain ⟨sql, hsql, h⟩ := bind_eq_ok.mp h
      obtain rfl := pure_eq_ok.mp h
      refine ⟨?_, ha.sorted, ?_, ?_⟩
      · rw [List.filter_append, List.filter_singleton, hwhole]
        exact List.rel_append ha.whole (.cons ⟨rfl, type, htype, hsql⟩ .nil)
      · intro column
        rw [hchange]
        exact ha.contains column
      · intro column
        rw [hchange]
        exact ha.folded column
  | some parts =>
    obtain ⟨root, rest⟩ := parts
    simp only [hcut] at h
    have hwhole : isWhole (key, value) = false := by simp [isWhole, hcut]
    have hroot : changesBelow root (seen ++ [(key, value)])
        = changesBelow root seen ++ [(Text.split '.' rest, value)] := by
      rw [changesBelow_concat, changeBelow?, hcut]
      simp
    have hother {column : String} (hne : column ≠ root) :
        changesBelow column (seen ++ [(key, value)]) = changesBelow column seen := by
      rw [changesBelow_concat, changeBelow?, hcut]
      simp [Ne.symm hne]
    split at h
    next =>
      obtain ⟨sql, hsql, h⟩ := bind_eq_ok.mp h
      obtain rfl := pure_eq_ok.mp h
      refine ⟨?_, ha.sorted.insert _ _, ?_, ?_⟩
      · rw [List.filter_append, List.filter_singleton, hwhole]
        simpa using ha.whole
      · intro column
        by_cases hcolumn : column = root
        · subst hcolumn
          rw [hroot, Dict.contains, Dict.get?_insert_self]
          simp
        · rw [hother hcolumn, Dict.contains, Dict.get?_insert_of_ne _ _ hcolumn]
          exact ha.contains column
      · intro column
        by_cases hcolumn : column = root
        · subst hcolumn
          rw [hroot, folded_concat, ha.folded, Dict.get?_insert_self]
          exact hsql
        · rw [hother hcolumn, Dict.get?_insert_of_ne _ _ hcolumn]
          exact ha.folded column
    next => cases h

/-- The assignments of an update are those gathered of all its members. -/
theorem gathers_of_assignments {all : List (String × Sql)} (h : assignments s update = .ok all) :
    ∃ a, Gathers s.forStorage update a ∧ all = a.all := by
  obtain ⟨a, ha, h⟩ := bind_eq_ok.mp h
  refine ⟨a, foldlM_induction (P := Gathers s.forStorage) (gathers_nil _)
    (fun _ _ _ _ hbefore hafter => hbefore.assign hafter) ha, ?_⟩
  dsimp only at h
  split at h
  · cases h
  · exact (pure_eq_ok.mp h).symm

/-! ## Each column once -/

/-- How a member of an update gets into the assignments: by the assignment of its column, or by its
change among all those that are folded into the document of its column. -/
inductive Contributes (s : Schema) (update : Object) (all : List (String × Sql)) :
    String × Json → Prop
  | whole {key : String} {value : Json} {type : FieldType} {sql : Sql}
    (hkey : Text.cut? '.' key = none) (htype : s.forStorage.field? key = some type)
    (hsql : expression key type value = .ok sql) (hmem : (key, sql) ∈ all) :
    Contributes s update all (key, value)
  | nested {key root rest : String} {value : Json} {sql : Sql}
    (hkey : Text.cut? '.' key = some (root, rest))
    (hchange : (Text.split '.' rest, value) ∈ changesBelow root update)
    (hsql : folded root (changesBelow root update) = .ok sql) (hmem : (root, sql) ∈ all) :
    Contributes s update all (key, value)

namespace Gathers

variable {a : Assignments}

/-- Whole columns are assigned in the order of their members. -/
theorem map_whole (h : Gathers s update a) :
    a.whole.map Prod.fst = (update.filter isWhole).map Prod.fst := by
  have hcolumns : List.Forall₂ (· = ·) (a.whole.map Prod.fst)
      ((update.filter isWhole).map Prod.fst) :=
    List.forall₂_map_left_iff.mpr (List.forall₂_map_right_iff.mpr
      (h.whole.flip.imp fun _ _ hentry => hentry.1))
  rwa [List.forall₂_eq_eq_eq] at hcolumns

/-- A document is assigned if there are changes below its column. -/
theorem mem_nested_iff (h : Gathers s update a) :
    column ∈ a.nested.map Prod.fst ↔ changesBelow column update ≠ [] :=
  Dict.contains_iff_mem_keys.symm.trans (h.contains column)

/-- The columns of all assignments are those of the members. -/
theorem mem_columns_iff (h : Gathers s update a) :
    column ∈ a.all.map Prod.fst ↔ ∃ member ∈ update, columnOf member.1 = column := by
  rw [Assignments.all, List.map_append, List.mem_append, h.mem_nested_iff, changesBelow_ne_nil_iff,
    h.map_whole, List.mem_map]
  constructor
  · rintro (⟨member, hmember, rfl⟩ | ⟨member, hmember, -, hcolumn⟩)
    · obtain ⟨hmember, hwhole⟩ := List.mem_filter.mp hmember
      exact ⟨member, hmember, columnOf_of_isWhole hwhole⟩
    · exact ⟨member, hmember, hcolumn⟩
  · rintro ⟨member, hmember, hcolumn⟩
    cases hwhole : isWhole member with
    | true =>
      exact Or.inl ⟨member, List.mem_filter.mpr ⟨hmember, hwhole⟩,
        (columnOf_of_isWhole hwhole).symm.trans hcolumn⟩
    | false => exact Or.inr ⟨member, hmember, hwhole, hcolumn⟩

/-- No column is assigned twice as a whole, and none by two documents. -/
theorem nodup_iff (h : Gathers s update a) (hupdate : update.Sorted) :
    (a.all.map Prod.fst).Nodup
      ↔ ∀ member ∈ update, isWhole member = true → changesBelow member.1 update = [] := by
  have hwhole : (a.whole.map Prod.fst).Nodup := by
    rw [h.map_whole]
    exact hupdate.nodup_keys.sublist (List.filter_sublist.map _)
  rw [Assignments.all, List.map_append, List.nodup_append]
  refine (and_iff_right hwhole).trans ((and_iff_right h.sorted.nodup_keys).trans ?_)
  rw [h.map_whole]
  constructor
  · intro hapart member hmember hwhole
    by_contra hchanges
    exact hapart member.1 (List.mem_map_of_mem (List.mem_filter.mpr ⟨hmember, hwhole⟩)) member.1
      (h.mem_nested_iff.mpr hchanges) rfl
  · rintro hall column hcolumn _ hnested rfl
    obtain ⟨member, hmember, rfl⟩ := List.mem_map.mp hcolumn
    obtain ⟨hmember, hwhole⟩ := List.mem_filter.mp hmember
    exact h.mem_nested_iff.mp hnested (hall member hmember hwhole)

/-- A column with changes below it is assigned the document with all of them. -/
theorem exists_folded (h : Gathers s update a) (hchanges : changesBelow column update ≠ []) :
    ∃ sql, Update.folded column (changesBelow column update) = .ok sql ∧ (column, sql) ∈ a.all := by
  obtain ⟨sql, hsql⟩ := Dict.contains_iff.mp ((h.contains column).mpr hchanges)
  refine ⟨sql, ?_, List.mem_append_right _ (Dict.mem_of_get? hsql)⟩
  rw [h.folded, hsql]
  rfl

/-- Every member gets into the assignments. -/
theorem contributes {all : List (String × Sql)} (h : Gathers s.forStorage update a)
    (hall : all = a.all) (hmember : member ∈ update) : Contributes s update all member := by
  subst hall
  obtain ⟨key, value⟩ := member
  cases hcut : Text.cut? '.' key with
  | none =>
    have hwhole : (key, value) ∈ update.filter isWhole :=
      List.mem_filter.mpr ⟨hmember, isWhole_iff.mpr hcut⟩
    obtain ⟨⟨column, sql⟩, hentry, rfl, type, htype, hsql⟩ :=
      exists_right_of_mem h.whole hwhole
    exact .whole hcut htype hsql (List.mem_append_left _ hentry)
  | some parts =>
    obtain ⟨root, rest⟩ := parts
    have hchange : (Text.split '.' rest, value) ∈ changesBelow root update :=
      List.mem_filterMap.mpr ⟨(key, value), hmember, by simp [changeBelow?, hcut]⟩
    obtain ⟨sql, hsql, hmem⟩ := h.exists_folded (List.ne_nil_of_mem hchange)
    exact .nested hcut hchange hsql hmem

/-- All that is assigned are values. -/
theorem isValue (h : Gathers s update a) : ∀ entry ∈ a.all, IsValue entry.2 := by
  refine List.forall_mem_append.mpr ⟨?_, ?_⟩
  · intro entry hentry
    obtain ⟨member, _, -, type, -, hsql⟩ := exists_left_of_mem h.whole hentry
    exact isValue_expression hsql
  · intro entry hentry
    have hsql := h.folded entry.1
    rw [h.sorted.get?_eq_some_iff.mpr hentry] at hsql
    exact isValue_folded hsql

end Gathers

/-- An update assigns just the columns that its keys name or lead into, and each of its members
contributes to the assignment of its column. Each column is assigned once if and only if no key that
names a column stands beside keys that lead into it. -/
theorem assigns_once_iff {s : Schema} {update : Object} {sql : Sql} (hupdate : update.Sorted)
    (h : setClause s update = .ok sql) :
    (∀ column, column ∈ assignedColumns sql ↔ ∃ member ∈ update, columnOf member.1 = column)
    ∧ (∃ all, sql = assignmentSql all ∧ assignedColumns sql = all.map Prod.fst
      ∧ ∀ member ∈ update, Contributes s update all member)
    ∧ ((assignedColumns sql).Nodup
      ↔ ∀ member ∈ update, isWhole member = true → changesBelow member.1 update = []) := by
  obtain ⟨all, hall, rfl⟩ := map_eq_ok.mp h
  obtain ⟨a, ha, rfl⟩ := gathers_of_assignments hall
  have hcolumns : assignedColumns (assignmentSql a.all) = a.all.map Prod.fst :=
    assignedColumns_assignmentSql ha.isValue
  rw [hcolumns]
  refine ⟨fun column => ha.mem_columns_iff, ⟨a.all, rfl, rfl, ?_⟩, ha.nodup_iff hupdate⟩
  intro member hmember
  exact ha.contributes rfl hmember

/-- A game with a score, and data to reach into. -/
def game : Schema :=
  { className := "Game"
    fields := Dict.ofList [("data", .object), ("name", .string), ("score", .number)] }

/-- A literal, an operator, a permission column and changes at two places. -/
def gameUpdate : Object :=
  Dict.ofList
    [("name", .str "x"), ("data.a.b", .int 1), ("_rperm", .ofStrings ["*"]),
      ("score", .ofEntries [("__op", .str "Delete")]),
      ("data.a", .ofEntries [("__op", .str "Delete")])]

/-- An update of all kinds in which no key leads into a column that another one names. -/
theorem gameUpdate_assigns_once :
    gameUpdate.Sorted ∧ ∃ sql, setClause game gameUpdate = .ok sql
      ∧ assignedColumns sql = ["_rperm", "name", "score", "data"]
      ∧ ∀ member ∈ gameUpdate, isWhole member = true → changesBelow member.1 gameUpdate = [] := by
  have hupdate : gameUpdate.Sorted := by decide
  refine ⟨hupdate, _, rfl, rfl, (assigns_once_iff (s := game) hupdate rfl).2.2.mp ?_⟩
  decide

/-- A column is assigned twice if an update names it and leads into it. -/
theorem data_assigned_twice :
    ∃ sql, setClause game [("data", .ofEntries [("a", .int 1)]), ("data.b", .int 2)] = .ok sql
      ∧ assignedColumns sql = ["data", "data"] ∧ ¬ (assignedColumns sql).Nodup :=
  ⟨_, rfl, rfl, by decide⟩

end ObjectStore.Update
