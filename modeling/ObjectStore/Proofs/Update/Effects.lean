import ObjectStore.Proofs.Sql.Effects
import ObjectStore.Proofs.Update.Readable

/-!
# What assignments do to records

A value is stored as `NULL` if it is null, and as a document in a column of documents
(`FieldType.isLegal_encode`); an operator on a column stores what its elements are, or erases it. So
as long as the keys of the values of an update may stand where they do, what it assigns is legal
if none of its members erases a permission column, and none reaches a key that may not stand there
by a dotted one (`isLegal_setClause`).

The assignments are gathered one member after another, and all changes of one document go into one
assignment. The step lemma `Assignments.areLegal_assign` says what one member adds.
-/

namespace ObjectStore

open Sql Result Update

/-- Null has no keys. -/
theorem Update.hasNestedKeys_of_isNull {value : Json} (h : value.isNull = true) :
    hasNestedKeys value = true := by
  cases value with
  | null => rfl
  | bool | int | double | str | arr | obj => cases h

namespace FieldType

variable {type : FieldType} {value : Json} {sql : Sql}

/-- A value is bound as `NULL` if it is null. -/
theorem isNull_param (value : Json) : (Sql.bind value.param).isNull = value.isNull := by
  cases value <;> rfl

/-- A value is not stored as `NULL`, and is stored as a document in a column of documents only. -/
theorem isLegal_encodeColumn {column : ColumnType} (hvalue : value.isNull = false)
    (h : type.encodeColumn value column = .ok sql) :
    sql.isNull = false ∧ (sql.IsLegal ↔ (column = .json → hasNestedKeys value = true)) := by
  have hplain (hcolumn : column ≠ .json) (hlegal : sql.IsLegal) :
      sql.IsLegal ↔ (column = .json → hasNestedKeys value = true) :=
    iff_of_true hlegal fun h => absurd h hcolumn
  cases column with
  | text | double | boolean =>
    obtain rfl := Except.ok.inj h
    exact ⟨(isNull_param value).trans hvalue, hplain (by decide) (isLegal_bind _)⟩
  | timestamp =>
    simp only [encodeColumn, encodeDate] at h
    split at h
    · obtain rfl := Except.ok.inj h
      exact ⟨rfl, hplain (by decide) (isLegal_bindText _ (by decide) (by decide))⟩
    · cases h
  | json =>
    obtain rfl := encodeDocument_eq_ok h
    exact ⟨rfl, (isLegal_bindJson value).trans (by simp)⟩
  | textArray =>
    simp only [encodeColumn, encodeTexts] at h
    split at h
    · obtain rfl := Except.ok.inj h
      exact ⟨rfl, hplain (by decide) (isLegal_bindText _ (by decide) (by decide))⟩
    · cases h
  | point =>
    simp only [encodeColumn, encodePoint] at h
    split at h
    · obtain ⟨_, _, h⟩ := bind_eq_ok.mp h
      obtain rfl := pure_eq_ok.mp h
      refine ⟨rfl, hplain (by decide) ?_⟩
      simp [GeoPoint.sql, Sql.bind, Sql.text, effectAt?, pathWords]
    · cases h
  | polygon =>
    simp only [encodeColumn, encodePolygon] at h
    split at h
    · obtain ⟨_, _, h⟩ := bind_eq_ok.mp h
      obtain rfl := pure_eq_ok.mp h
      exact ⟨rfl, hplain (by decide) (isLegal_bindText _ (by decide) (by decide))⟩
    · cases h

/-- What is stored for a value is `NULL` if the value is, and legal unless the value is a document
with keys that may not stand there. -/
theorem isLegal_encode (h : type.encode value = .ok (some sql)) :
    sql.isNull = value.isNull
      ∧ (sql.IsLegal ↔ (type.column? = some .json → hasNestedKeys value = true)) := by
  unfold encode at h
  split at h
  next hnull =>
    obtain rfl := Option.some.inj (Except.ok.inj h)
    have hlegal : (Sql.text "NULL").IsLegal := (isLegal_text (by decide)).mpr isLegal_nil
    exact ⟨hnull.symm, iff_of_true hlegal fun _ => hasNestedKeys_of_isNull hnull⟩
  next hnull =>
    rw [Bool.not_eq_true] at hnull
    split at h
    · cases Except.ok.inj h
    next column hcolumn =>
      obtain ⟨encoded, hencoded, h⟩ := map_eq_ok.mp h
      obtain rfl := Option.some.inj h
      obtain ⟨hpresent, hlegal⟩ := isLegal_encodeColumn hnull hencoded
      rw [hpresent, hnull, hlegal, hcolumn, Option.some.injEq]
      exact ⟨rfl, Iff.rfl⟩

end FieldType

namespace Update

/-! ## Values of updates -/

/-- The members of a value with good keys have good keys. -/
theorem hasNestedKeys_of_get? {fields : List (String × Json)} {key : String} {value : Json}
    (h : membersHaveNestedKeys fields = true) (hget : Dict.get? fields key = some value) :
    hasNestedKeys value = true := by
  induction fields with
  | nil => cases hget
  | cons head rest ih =>
    obtain ⟨k, v⟩ := head
    rw [membersHaveNestedKeys, Bool.and_eq_true, Bool.and_eq_true] at h
    rw [Dict.get?] at hget
    split at hget
    · exact Option.some.inj hget ▸ h.1.2
    · exact ih h.2 hget

variable {name tag root key : String} {type : FieldType} {value : Json} {base column sql : Sql}
  {s : Schema} {a b : Assignments}

/-- The elements of a list operator have keys that may stand there if the operator has. -/
theorem hasNestedKeys_elements {items : List Json} (h : elements value = .ok items)
    (hvalue : hasNestedKeys value = true) : hasNestedKeys (.arr items) = true := by
  unfold elements at h
  split at h
  next found hfound =>
    obtain rfl := Except.ok.inj h
    cases value with
    | obj fields =>
      obtain ⟨member, hmember, harr⟩ := Option.bind_eq_some_iff.mp hfound
      have hkeys := hasNestedKeys_of_get? hvalue hmember
      cases member with
      | arr => exact Option.some.inj harr ▸ hkeys
      | null | bool | int | double | str | obj => cases harr
    | null | bool | int | double | str | arr => cases hfound
  next => cases h

/-- Whether a value leaves nothing in the column that it is written to. -/
def erases (value : Json) : Bool := value.isNull || value.opTag? == some "Delete"

/-- An operator erases its column if it is a deletion. -/
theorem erases_of_opTag? (h : value.opTag? = some tag) : erases value = (tag == "Delete") := by
  have hnull : value.isNull = false := by cases value <;> first | rfl | cases h
  rw [erases, hnull, h, Bool.false_or, Option.some_beq_some]

/-- Operators on lists delete nothing. -/
theorem ne_delete_of_ofTag? {operator : ListOperator}
    (h : ListOperator.ofTag? tag = some operator) :
    tag ≠ "Delete" := by
  rintro rfl
  cases h

/-- A change of a list is not `NULL`, and legal if the keys of its elements may stand there. -/
theorem isLegal_listExpression (name : String) (isTextArray : Bool) (operator : ListOperator)
    {items : List Json} (h : hasNestedKeys (.arr items) = true) :
    (listExpression (Sql.name name) isTextArray operator items).isNull = false
      ∧ (listExpression (Sql.name name) isTextArray operator items).IsLegal := by
  have hkeys := (Json.textHasNestedKeys_compact (.arr items)).trans h
  unfold listExpression
  dsimp only
  split
  · split
    · refine ⟨rfl, ?_⟩
      simp [FieldType.textArray, Sql.bindText, Sql.name, Sql.bind, Sql.text, effectAt?, pathWords]
    -- a column of texts is turned to a document and back
    · cases operator <;> refine ⟨rfl, ?_⟩ <;>
        simp [Sql.bindText, Sql.bindJson, Sql.name, Sql.bind, Sql.text, effectAt?, pathWords,
          ListOperator.function, Effect.IsLegal, hkeys]
  · cases operator <;> refine ⟨rfl, ?_⟩ <;>
      simp [Sql.bindText, Sql.bindJson, Sql.name, Sql.bind, Sql.text, effectAt?, pathWords,
        ListOperator.function, Effect.IsLegal, hkeys]

/-- An operator writes `NULL` if it deletes, and nothing illegal. -/
theorem isLegal_operatorExpression (hvalue : hasNestedKeys value = true)
    (h : operatorExpression name type value tag = .ok sql) :
    sql.isNull = (tag == "Delete") ∧ sql.IsLegal := by
  unfold operatorExpression at h
  split at h
  next operator hoperator =>
    obtain ⟨items, hitems, h⟩ := bind_eq_ok.mp h
    obtain rfl := pure_eq_ok.mp h
    rw [beq_false_of_ne (ne_delete_of_ofTag? hoperator)]
    exact isLegal_listExpression name _ operator (hasNestedKeys_elements hitems hvalue)
  · obtain rfl := Except.ok.inj h
    exact ⟨rfl, (isLegal_text (by decide)).mpr isLegal_nil⟩
  · obtain ⟨amount, _, h⟩ := bind_eq_ok.mp h
    obtain rfl := pure_eq_ok.mp h
    refine ⟨rfl, ?_⟩
    simp [Sql.name, Sql.bind, Sql.text, effectAt?, pathWords]
  · cases h

/-- A column is assigned `NULL` for what erases it, and nothing illegal. -/
theorem isLegal_expression (hvalue : hasNestedKeys value = true)
    (h : expression name type value = .ok sql) : sql.isNull = erases value ∧ sql.IsLegal := by
  unfold expression at h
  split at h
  next _ htag =>
    rw [erases_of_opTag? htag]
    exact isLegal_operatorExpression hvalue h
  next _ htag =>
    obtain ⟨encoded, hencoded, h⟩ := bind_eq_ok.mp h
    split at h
    · obtain rfl := pure_eq_ok.mp h
      obtain ⟨hnull, hlegal⟩ := FieldType.isLegal_encode hencoded
      refine ⟨?_, hlegal.mpr fun _ => hvalue⟩
      rw [hnull, erases, htag]
      exact (Bool.or_false _).symm
    · cases h

/-! ## Places inside documents -/

/-- The document of a column, or an empty one, is legal. -/
theorem isLegal_objectBase (root : String) :
    (objectBase root).isNull = false ∧ (objectBase root).IsLegal := by
  refine ⟨rfl, ?_⟩
  simp [objectBase, Sql.name, Sql.text, effectAt?, pathWords]

/-- One more change of a document is legal if those before it are and its path is. -/
theorem isLegal_pathExpression {parts : List String} (hvalue : hasNestedKeys value = true)
    (h : pathExpression base root parts value = .ok sql) :
    sql.isNull = false ∧ (sql.IsLegal ↔ base.IsLegal ∧ parts.all isNestedKey = true) := by
  have hkeys := (Json.textHasNestedKeys_compact value).trans hvalue
  unfold pathExpression at h
  split at h
  · obtain rfl := Except.ok.inj h
    refine ⟨rfl, ?_⟩
    simp only [List.append_assoc]
    rw [isLegal_text (by decide), isLegal_append_text (by decide)]
    simp [bindPath, Sql.bindText, Sql.bindJson, Sql.bind, Sql.text, effectAt?, pathWords,
      Effect.IsLegal, hkeys]
  · obtain rfl := Except.ok.inj h
    refine ⟨rfl, ?_⟩
    simp only [List.append_assoc]
    rw [isLegal_text (by decide), isLegal_append_text (by decide)]
    simp [bindPath, Sql.bindText, Sql.bind, Sql.text, effectAt?, pathWords, Effect.IsLegal]
  · obtain ⟨amount, _, h⟩ := bind_eq_ok.mp h
    obtain rfl := pure_eq_ok.mp h
    refine ⟨rfl, ?_⟩
    simp only [List.append_assoc]
    rw [isLegal_text (by decide), isLegal_append_text (by decide)]
    simp [bindPath, Sql.bindText, Sql.name, Sql.bind, Sql.text, effectAt?, pathWords,
      Effect.IsLegal]
  · cases h

/-! ## Assignments -/

/-- Whether a column may be assigned a fragment. -/
def IsLegalAssignment (assignment : String × Sql) : Prop :=
  (assignment.2.isNull = true → assignment.1 ∉ [readColumn, writeColumn])
    ∧ assignment.2.IsLegal

/-- Whether a record may be updated with a member: a permission column may not be erased, and what
comes after the first dot of a key stands below the top level. -/
def IsLegalMember (member : String × Json) : Prop :=
  match Text.cut? '.' member.1 with
  | some (_, rest) => (Text.split '.' rest).all isNestedKey = true
  | none => erases member.2 = true → member.1 ∉ [readColumn, writeColumn]

namespace Assignments

/-- All gathered assignments are legal. -/
def AreLegal (a : Assignments) : Prop := ∀ assignment ∈ a.all, IsLegalAssignment assignment

/-- The documents are gathered once each, and none of them becomes `NULL`. -/
structure GathersDocuments (a : Assignments) : Prop where
  sorted : a.nested.Sorted
  present : ∀ entry ∈ a.nested, entry.2.isNull = false

theorem areLegal_empty : ({} : Assignments).AreLegal := nofun

theorem gathersDocuments_empty : ({} : Assignments).GathersDocuments := ⟨Dict.sorted_nil, nofun⟩

/-- An assignment of what is not `NULL` is legal if this is. -/
theorem isLegalAssignment_iff {root : String} (h : sql.isNull = false) :
    IsLegalAssignment (root, sql) ↔ sql.IsLegal :=
  and_iff_right fun hnull => Bool.noConfusion (hnull.symm.trans h)

/-- The gathered assignments with one more change of a document are legal if they were and the path
of the change is. -/
theorem areLegal_insert {parts : List String} (ha : a.GathersDocuments)
    (hsql : sql.isNull = false)
    (hlegal : sql.IsLegal ↔ ((a.nested.get? root).getD (objectBase root)).IsLegal
      ∧ parts.all isNestedKey = true) :
    ({ a with nested := a.nested.insert root sql } : Assignments).AreLegal
      ↔ a.AreLegal ∧ parts.all isNestedKey = true := by
  -- the change goes on from what was gathered for its document before, or from the document
  have hbefore : ((a.nested.get? root).getD (objectBase root)).IsLegal
      ↔ ∀ before, a.nested.get? root = some before → IsLegalAssignment (root, before) := by
    cases hget : a.nested.get? root with
    | none => exact iff_of_true (isLegal_objectBase root).2 nofun
    | some before =>
      have hpresent := ha.present _ (Dict.mem_of_get? hget)
      simp only [Option.getD_some, Option.some.injEq, forall_eq', isLegalAssignment_iff hpresent]
  have hnested := ha.sorted.forall_mem_iff root (P := IsLegalAssignment)
  simp only [AreLegal, all, List.forall_mem_append]
  rw [ha.sorted.forall_mem_insert_iff, isLegalAssignment_iff hsql, hlegal, hbefore, hnested]
  tauto

/-- One more member keeps the documents gathered once each. -/
theorem gathersDocuments_assign {member : String × Json} (ha : a.GathersDocuments)
    (hvalue : hasNestedKeys member.2 = true) (h : a.assign s member = .ok b) :
    b.GathersDocuments := by
  obtain ⟨key, value⟩ := member
  unfold assign at h
  dsimp only at h
  split at h
  · split at h
    -- a dotted key goes on from the document under its first part
    · obtain ⟨sql, hsql, h⟩ := bind_eq_ok.mp h
      obtain rfl := pure_eq_ok.mp h
      refine ⟨ha.sorted.insert _ _, ?_⟩
      intro entry hentry
      rcases Dict.mem_insert hentry with rfl | hentry
      · exact (isLegal_pathExpression hvalue hsql).1
      · exact ha.present entry hentry
    · cases h
  · split at h
    · cases h
    · obtain ⟨sql, _, h⟩ := bind_eq_ok.mp h
      obtain rfl := pure_eq_ok.mp h
      exact ⟨ha.sorted, ha.present⟩

/-- The assignments with one more are legal if those before it are and the member is. -/
theorem areLegal_assign {member : String × Json} (ha : a.GathersDocuments)
    (hvalue : hasNestedKeys member.2 = true) (h : a.assign s member = .ok b) :
    b.AreLegal ↔ a.AreLegal ∧ IsLegalMember member := by
  obtain ⟨key, value⟩ := member
  unfold assign at h
  unfold IsLegalMember
  cases hcut : Text.cut? '.' key with
  | some parts =>
    obtain ⟨root, rest⟩ := parts
    simp only [hcut] at h
    split at h
    · obtain ⟨sql, hsql, h⟩ := bind_eq_ok.mp h
      obtain rfl := pure_eq_ok.mp h
      obtain ⟨hpresent, hlegal⟩ := isLegal_pathExpression hvalue hsql
      exact areLegal_insert ha hpresent hlegal
    · cases h
  | none =>
    simp only [hcut] at h
    split at h
    · cases h
    next type _ =>
      obtain ⟨sql, hsql, h⟩ := bind_eq_ok.mp h
      obtain rfl := pure_eq_ok.mp h
      obtain ⟨hnull, hlegal⟩ := isLegal_expression hvalue hsql
      have hlast : IsLegalAssignment (key, sql)
          ↔ (erases value = true → key ∉ [readColumn, writeColumn]) := by
        rw [IsLegalAssignment, hnull]
        exact and_iff_left hlegal
      simp only [AreLegal, all, List.forall_mem_append, List.forall_mem_singleton, hlast]
      exact and_right_comm

end Assignments

/-- The assignments of an update are legal if its members are. -/
theorem areLegal_assignments {update : Object} {all : List (String × Sql)}
    (hvalues : ∀ member ∈ update, hasNestedKeys member.2 = true)
    (h : assignments s update = .ok all) :
    (∀ assignment ∈ all, IsLegalAssignment assignment)
      ↔ ∀ member ∈ update, IsLegalMember member := by
  unfold assignments at h
  obtain ⟨gathered, hgathered, h⟩ := bind_eq_ok.mp h
  -- carried along the fold: what was gathered is legal if the members gone through so far are
  have hlegal : gathered.GathersDocuments ∧
      (gathered.AreLegal ↔ ∀ member ∈ update, IsLegalMember member) := by
    refine foldlM_induction (P := fun seen a => (∀ member ∈ seen, hasNestedKeys member.2 = true) →
      a.GathersDocuments ∧ (a.AreLegal ↔ ∀ member ∈ seen, IsLegalMember member)) ?_ ?_
      hgathered hvalues
    · intro _
      exact ⟨Assignments.gathersDocuments_empty, iff_of_true Assignments.areLegal_empty nofun⟩
    · intro seen a member b hbefore hafter hseen
      rw [List.forall_mem_append, List.forall_mem_singleton] at hseen
      obtain ⟨hdocuments, hareLegal⟩ := hbefore hseen.1
      refine ⟨Assignments.gathersDocuments_assign hdocuments hseen.2 hafter, ?_⟩
      rw [Assignments.areLegal_assign hdocuments hseen.2 hafter, hareLegal, List.forall_mem_append,
        List.forall_mem_singleton]
  dsimp only at h
  split at h
  · cases h
  · obtain rfl := pure_eq_ok.mp h
    exact hlegal.2

/-- One assignment, as it is written. -/
theorem isLegal_assignment (column : String) (sql : Sql) :
    (Sql.name column ++ Sql.text " = " ++ sql).IsLegal ↔ IsLegalAssignment (column, sql) := by
  have hname : (∀ effect, effectAt? (.name column) (.text " = " :: sql) = some effect →
      effect.IsLegal) ↔ (sql.isNull = true → column ∉ [readColumn, writeColumn]) := by
    cases sql with
    | nil => simp [effectAt?, isNull]
    | cons token rest => simp [effectAt?, isNull, Effect.IsLegal]
  have hsign : (Sql.text " = " ++ sql).IsLegal ↔ sql.IsLegal := isLegal_text (by decide)
  exact isLegal_cons.trans (and_congr hname hsign)

/-- The assignments of a statement are legal if each of them is. -/
theorem isLegal_assignmentSql (all : List (String × Sql)) :
    (assignmentSql all).IsLegal ↔ ∀ assignment ∈ all, IsLegalAssignment assignment := by
  -- a column comes after each comma, so no comma comes before a path
  have hcomma : ∀ first rest, (Sql.text ", " ++ assignmentSql (first :: rest)).IsLegal
      ↔ (assignmentSql (first :: rest)).IsLegal := by
    intro first rest
    have hnone : effectAt? (.text ", ") (assignmentSql (first :: rest)) = none := by
      cases rest <;> rfl
    refine isLegal_cons.trans (and_iff_right ?_)
    intro effect h
    cases h.symm.trans hnone
  induction all with
  | nil => exact iff_of_true isLegal_nil nofun
  | cons first rest ih =>
    obtain ⟨column, sql⟩ := first
    rw [List.forall_mem_cons, ← isLegal_assignment]
    cases rest with
    | nil => exact (and_iff_left nofun).symm
    | cons next rest =>
      have hrest := (hcomma next rest).trans ih
      rw [← hrest, ← isLegal_append_text (by decide), ← List.append_assoc]
      rfl

/-- What an update assigns is legal if its members are. -/
theorem isLegal_setClause {update : Object}
    (hvalues : ∀ member ∈ update, hasNestedKeys member.2 = true)
    (h : setClause s update = .ok sql) : sql.IsLegal ↔ ∀ member ∈ update, IsLegalMember member := by
  obtain ⟨all, hall, rfl⟩ := map_eq_ok.mp h
  rw [isLegal_assignmentSql, areLegal_assignments hvalues hall]

end Update

end ObjectStore
