import ObjectStore.Objects.Write
import ObjectStore.Proofs.Dict
import ObjectStore.Proofs.Query.Mention

/-!
# Assignments and insertions are read back

The fragments that are written for an update and for a new object, part by part: a value to store
only binds, an expression has its column in quotes, and a statement puts columns and expressions one
after another with fixed texts between them.
-/

namespace ObjectStore

open Sql Result

namespace FieldType

variable {type : FieldType} {value : Json} {sql : Sql}

/-- The checks of a document decide whether it is written, not how. -/
theorem encodeDocument_eq_ok (h : type.encodeDocument value = .ok sql) :
    sql = Sql.bindJson value.compact := by
  have hdone : ∀ {x : Result PUnit}, (do x; pure (Sql.bindJson value.compact)) = Except.ok sql →
      sql = Sql.bindJson value.compact := by
    intro x h
    obtain ⟨_, _, h⟩ := bind_eq_ok.mp h
    exact (pure_eq_ok.mp h).symm
  unfold encodeDocument at h
  split at h
  · exact hdone h
  · exact hdone (x := pure ⟨⟩) h

/-- A value is bound in every kind of column, at most with a cast or a function behind it. -/
theorem reads_encodeColumn {column : ColumnType} (h : type.encodeColumn value column = .ok sql) :
    Reads sql [] := by
  cases column with
  | text | double | boolean =>
    obtain rfl := Except.ok.inj h
    exact Reads.bind _
  | timestamp =>
    simp only [encodeColumn, encodeDate] at h
    split at h
    · obtain rfl := Except.ok.inj h
      exact (FieldRef.reads_bindText _).before (joins_cast (by decide))
    · cases h
  | json =>
    obtain rfl := encodeDocument_eq_ok h
    exact Reads.bindJson _
  | textArray =>
    simp only [encodeColumn, encodeTexts] at h
    split at h
    · obtain rfl := Except.ok.inj h
      exact FieldRef.reads_textArray _
    · cases h
  | point =>
    simp only [encodeColumn, encodePoint] at h
    split at h
    · obtain ⟨_, _, h⟩ := bind_eq_ok.mp h
      obtain rfl := pure_eq_ok.mp h
      exact FieldRef.reads_point _
    · cases h
  | polygon =>
    simp only [encodeColumn, encodePolygon] at h
    split at h
    · obtain ⟨_, _, h⟩ := bind_eq_ok.mp h
      obtain rfl := pure_eq_ok.mp h
      exact (FieldRef.reads_bindText _).before (joins_cast (by decide))
    · cases h

/-- A value to store has nothing in quotes. -/
theorem reads_encode (h : type.encode value = .ok (some sql)) : Reads sql [] := by
  unfold encode at h
  split at h
  · obtain rfl := Option.some.inj (Except.ok.inj h)
    exact Reads.text (joins_pipeline (by decide)).mem
  · split at h
    · cases Except.ok.inj h
    next column _ =>
      obtain ⟨encoded, hencoded, h⟩ := map_eq_ok.mp h
      obtain rfl := Option.some.inj h
      exact reads_encodeColumn hencoded

end FieldType

namespace Update

variable {name tag root key : String} {type : FieldType} {value : Json} {base column sql : Sql}
  {q : List Quote} {s : Schema} {a b : Assignments}

/-- The functions of lists are among the fixed texts of assignments. -/
theorem listFunction_mem (operator : ListOperator) :
    operator.function ++ "(COALESCE(" ∈ assignmentTexts ∧
      "ARRAY(SELECT jsonb_array_elements_text(" ++ operator.function ++ "(to_jsonb("
        ∈ assignmentTexts := by
  cases operator <;> exact ⟨by decide, by decide⟩

/-- A change of a list quotes what its column quotes: the elements are bound. -/
theorem reads_listExpression (h : Reads column q) (isTextArray : Bool) (operator : ListOperator)
    (elements : List Json) : Reads (listExpression column isTextArray operator elements) q := by
  obtain ⟨hjson, htext⟩ := listFunction_mem operator
  unfold listExpression
  dsimp only
  split
  · have hbase := (h.after (joins_assignment (s := "COALESCE(") (by decide))).before
      (joins_assignment (s := ", '\x7b\x7d'::text[])") (by decide))
    split
    · exact hbase.beside (joins_assignment (by decide)) (FieldRef.reads_textArray _)
    · exact ((hbase.after (joins_assignment htext)).beside (joins_assignment (by decide))
        (Reads.bindJson _)).before (joins_assignment (by decide))
  · exact ((h.after (joins_assignment hjson)).beside (joins_assignment (by decide))
      (Reads.bindJson _)).before (joins_condition (by decide))

/-- What an operator makes of a column is read back. -/
theorem readable_operatorExpression (h : operatorExpression name type value tag = .ok sql) :
    sql.Readable := by
  unfold operatorExpression at h
  split at h
  · obtain ⟨elements, _, h⟩ := bind_eq_ok.mp h
    obtain rfl := pure_eq_ok.mp h
    exact (reads_listExpression (Reads.name name) _ _ elements).readable
  · obtain rfl := Except.ok.inj h
    exact (Reads.text (joins_pipeline (by decide)).mem).readable
  · obtain ⟨amount, _, h⟩ := bind_eq_ok.mp h
    obtain rfl := pure_eq_ok.mp h
    exact (((Reads.name name).after (joins_assignment (by decide))).beside
      (joins_assignment (by decide)) (Reads.bind _)).readable
  · cases h

/-- What a column is assigned is read back. -/
theorem readable_expression (h : expression name type value = .ok sql) : sql.Readable := by
  unfold expression at h
  split at h
  · exact readable_operatorExpression h
  · obtain ⟨encoded, hencoded, h⟩ := bind_eq_ok.mp h
    split at h
    · obtain rfl := pure_eq_ok.mp h
      exact (FieldType.reads_encode hencoded).readable
    · cases h

/-- A path into a document is bound. -/
theorem reads_bindPath (parts : List String) : Reads (bindPath parts) [] :=
  (FieldRef.reads_bindText _).before (joins_cast (by decide))

/-- One more change of an object is read back if those before it are. -/
theorem readable_pathExpression {parts : List String} (hbase : base.Readable)
    (h : pathExpression base root parts value = .ok sql) : sql.Readable := by
  obtain ⟨q, hbase⟩ := hbase
  have hpath := reads_bindPath parts
  unfold pathExpression at h
  split at h
  · obtain rfl := Except.ok.inj h
    have hinside := (hbase.after (joins_assignment (s := "jsonb_set(") (by decide))).beside
      (joins_condition (s := ", ") (by decide)) hpath
    exact ((hinside.beside (joins_condition (by decide)) (Reads.bindJson _)).before
      (joins_condition (by decide))).readable
  · obtain rfl := Except.ok.inj h
    have hinside := (hbase.after (joins_condition (s := "(") (by decide))).beside
      (joins_assignment (s := " #- ") (by decide)) hpath
    exact (hinside.before (joins_condition (by decide))).readable
  · obtain ⟨amount, _, h⟩ := bind_eq_ok.mp h
    obtain rfl := pure_eq_ok.mp h
    have hinside := (hbase.after (joins_assignment (s := "jsonb_set(") (by decide))).beside
      (joins_condition (s := ", ") (by decide)) hpath
    have hroot := hinside.between
      (joins_assignment (s := ", to_jsonb(COALESCE((") (by decide)) (Reads.name root)
    have hold := hroot.beside (joins_assignment (s := " #>> ") (by decide)) hpath
    exact ((hold.beside (joins_assignment (by decide)) (Reads.bind _)).before
      (joins_assignment (by decide))).readable
  · cases h

/-- All gathered expressions are read back. -/
def Assignments.AreReadable (a : Assignments) : Prop :=
  (∀ entry ∈ a.whole, entry.2.Readable) ∧ ∀ entry ∈ a.nested, entry.2.Readable

/-- One more member of an update keeps what is gathered readable. -/
theorem areReadable_assign {member : String × Json} (ha : a.AreReadable)
    (h : a.assign s member = .ok b) : b.AreReadable := by
  obtain ⟨hwhole, hnested⟩ := ha
  obtain ⟨key, value⟩ := member
  unfold Assignments.assign at h
  dsimp only at h
  split at h
  next root rest _ =>
    split at h
    · obtain ⟨sql, hsql, h⟩ := bind_eq_ok.mp h
      obtain rfl := pure_eq_ok.mp h
      -- a change inside an object goes on from the changes of this object before it
      have hbase : ((a.nested.get? root).getD (objectBase root)).Readable := by
        cases hget : a.nested.get? root with
        | none =>
          exact (((Reads.name root).after (joins_assignment (s := "COALESCE(") (by decide))).before
            (joins_assignment (by decide))).readable
        | some base => exact hnested _ (Dict.mem_of_get? hget)
      refine ⟨hwhole, ?_⟩
      intro entry hentry
      rcases Dict.mem_insert hentry with rfl | hentry
      · exact readable_pathExpression hbase hsql
      · exact hnested entry hentry
    · cases h
  · split at h
    · cases h
    next type _ =>
      obtain ⟨sql, hsql, h⟩ := bind_eq_ok.mp h
      obtain rfl := pure_eq_ok.mp h
      exact ⟨List.forall_mem_append.mpr
        ⟨hwhole, List.forall_mem_singleton.mpr (readable_expression hsql)⟩, hnested⟩

/-- All assignments of an update are read back. -/
theorem readable_of_mem_assignments {update : Object} {all : List (String × Sql)}
    (h : assignments s update = .ok all) : ∀ entry ∈ all, entry.2.Readable := by
  unfold assignments at h
  obtain ⟨gathered, hgathered, h⟩ := bind_eq_ok.mp h
  have hread : gathered.AreReadable :=
    -- nothing is gathered at first, and each member keeps it readable
    foldlM_induction (P := fun _ a => a.AreReadable)
      ⟨fun _ h => (List.not_mem_nil h).elim, fun _ h => (List.not_mem_nil h).elim⟩
      (fun _ _ _ _ hbefore hafter => areReadable_assign hbefore hafter) hgathered
  dsimp only at h
  split at h
  · cases h
  · obtain rfl := pure_eq_ok.mp h
    exact List.forall_mem_append.mpr hread

/-- The assignments of an update are read back as one clause. -/
theorem readable_setClause {update : Object} (h : setClause s update = .ok sql) : sql.Readable := by
  obtain ⟨all, hall, rfl⟩ := map_eq_ok.mp h
  have hread := readable_of_mem_assignments hall
  have hequal : Joins " = " := joins_assignment (by decide)
  have hparts := ReadsAll.map all
    (f := fun entry => Sql.name entry.1 ++ Sql.text " = " ++ entry.2)
    fun entry hentry => (Reads.name entry.1).between hequal (hread entry hentry).reads
  exact (hparts.join (joins_condition (by decide))).readable

end Update

/-- An insertion is read back. -/
theorem Objects.readable_insertSql {className : String} {schema : Schema} {object : Object}
    {columns : List (String × Sql)} (h : insertColumns className schema object = .ok columns) :
    (Statement.insertSql className columns).Readable := by
  obtain ⟨found, hfound, h⟩ := bind_eq_ok.mp h
  obtain rfl := pure_eq_ok.mp h
  have hcolumns : ∀ entry ∈ found.filterMap id, Reads entry.2 [] := by
    intro entry hentry
    obtain ⟨column, hmem, rfl⟩ := List.mem_filterMap.mp hentry
    obtain ⟨member, _, hmember⟩ := exists_left_of_mem (mapM_eq_ok.mp hfound) hmem
    unfold insertColumn at hmember
    split at hmember
    · cases hmember
    · obtain ⟨encoded, hencoded, hmember⟩ := bind_eq_ok.mp hmember
      obtain ⟨sql, rfl, rfl⟩ := Option.map_eq_some_iff.mp (pure_eq_ok.mp hmember)
      exact FieldType.reads_encode hencoded
  have hnames := ReadsAll.map (found.filterMap id) fun entry _ => Reads.name entry.1
  have hvalues := ReadsAll.map (found.filterMap id) (f := Prod.snd) hcolumns
  have hcomma : Joins ", " := joins_condition (by decide)
  have htable := (Reads.name className).after (joins_row (s := "INSERT INTO ") (by decide))
  have hlist := htable.between (joins_row (s := " (") (by decide)) (hnames.join hcomma)
  have hall := hlist.between (joins_row (s := ") VALUES (") (by decide)) (hvalues.join hcomma)
  exact (hall.before (joins_condition (by decide))).readable

end ObjectStore
