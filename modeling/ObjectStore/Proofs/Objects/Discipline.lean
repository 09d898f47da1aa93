import ObjectStore.Proofs.Aggregate.Quoted
import ObjectStore.Proofs.Objects.Quoted
import ObjectStore.Proofs.Objects.Sending
import ObjectStore.Proofs.Update.Readable

/-!
# Placeholders and values

A statement is disciplined if the placeholders in its text are the numbers of its values, each of
them once, and if each stands where its value belongs. Operations on objects send disciplined
statements only, with one exception: a query that asks for an order binds the values of the order
in every statement, but only a search writes the order out (`disciplined_rows_iff`).
-/

namespace ObjectStore

open Sql Work

namespace Statement

/-- The values of a statement. -/
def values (s : Statement) : List Param := s.params?.getD []

/-- A statement as a fragment, with each value where it belongs. -/
def inline : Statement → Sql
  | .rows statement => statement.inline
  | statement => statement.sql?.getD []

/-- The placeholders in the text are the numbers of the values, each of them once, and each stands
where its value belongs. -/
structure Disciplined (s : Statement) : Prop where
  numbered : ∃ lexemes, lex s.text = some lexemes ∧
    (Lexeme.placeholders lexemes).Perm (List.range' 1 s.values.length)
  filled : s.marks.map (Mark.fill s.values) = s.inline.map some

/-- What is asked of a statement holds of a fragment that is numbered as a whole. -/
theorem numbered_of_readable {sql : Sql} (h : sql.Readable) :
    (∃ lexemes, lex (Mark.join (sql.number 1)) = some lexemes ∧
      (Lexeme.placeholders lexemes).Perm (List.range' 1 sql.params.length)) ∧
    (sql.number 1).map (Mark.fill sql.params) = sql.map some := by
  constructor
  · obtain ⟨lexemes, hlex, hplaceholders⟩ :=
      h.reads.lex_placeholders (Mark.spell_number 1 sql)
    refine ⟨lexemes, hlex, ?_⟩
    rw [hplaceholders, Mark.placeholders_number]
    exact List.Perm.refl _
  · exact Mark.fill_number ⟨[], [], by simp, rfl⟩

theorem disciplined_insert {className : String} {columns : List (String × Sql)}
    (h : (insertSql className columns).Readable) : (insert className columns).Disciplined :=
  ⟨(numbered_of_readable h).1, (numbered_of_readable h).2⟩

theorem disciplined_aggregate {className : String} {plan : Aggregate.Plan}
    (h : (plan.sql className).Readable) : (aggregate className plan).Disciplined :=
  ⟨(numbered_of_readable h).1, (numbered_of_readable h).2⟩

theorem disciplined_rowEstimate (className : String) :
    (metadata (.rowEstimate className)).Disciplined := by
  have h : (MetadataStatement.sql (.rowEstimate className)).Readable :=
    ((FieldRef.reads_bindText className).after (joins_row (by decide))).readable
  exact ⟨(numbered_of_readable h).1, (numbered_of_readable h).2⟩

/-- A statement on rows is disciplined just if it writes the order of its filter or if this order
binds no values. -/
theorem disciplined_rows_iff {statement : RowStatement} (hbare : statement.action.IsBare)
    (h : statement.inline.Readable) : (rows statement).Disciplined ↔
      statement.action.writesOrder = true ∨ statement.filter.orderSql.bindCount = 0 := by
  rw [← RowStatement.placeholders_perm_iff hbare]
  -- every placeholder stands where its value belongs anyway
  have hfill := RowStatement.fill_marks statement hbare
  obtain ⟨lexemes, hlex, hplaceholders⟩ := h.reads.lex_placeholders (Mark.spell_of_fill hfill)
  constructor
  · rintro ⟨⟨found, hfound, hperm⟩, _⟩
    obtain rfl := Option.some.inj (hlex.symm.trans hfound)
    rwa [hplaceholders] at hperm
  · intro hperm
    exact ⟨⟨lexemes, hlex, by rwa [hplaceholders]⟩, hfill⟩

end Statement

/-! ## Operations on objects -/

/-- An operation on the objects of a class. -/
inductive ObjectCall where
  | find (settings : Settings) (query : Object) (options : FindOptions)
  | count (settings : Settings) (query : Object) (mayEstimate : Bool)
  | distinct (query : Object) (field : String)
  | aggregate (pipeline : List Json)
  | create (object : Object)
  | updateAll (query update : Object)
  | updateOne (query update : Object)
  | delete (query : Object)

namespace ObjectCall

/-- What a call does. -/
def run (className : String) (schema : Schema) : ObjectCall → Work Unit
  | .find settings query options => do
    let _ ← Objects.find settings className schema query options
  | .count settings query mayEstimate => do
    let _ ← Objects.count settings className schema query mayEstimate
  | .distinct query field => do let _ ← Objects.distinct className schema query field
  | .aggregate pipeline => do let _ ← Objects.aggregate className schema pipeline
  | .create object => do let _ ← Objects.insert className schema object
  | .updateAll query update => do let _ ← Objects.updateAll className schema query update
  | .updateOne query update => do let _ ← Objects.updateOne className schema query update
  | .delete query => do let _ ← Objects.delete className schema query

/-- The query of a call that does not write the order out. -/
def unorderedQuery? : ObjectCall → Option Object
  | .count _ query _ | .distinct query _ | .updateAll query _ | .updateOne query _
  | .delete query => some query
  | .find .. | .aggregate _ | .create _ => none

/-- A call asks for an order that it does not write out. -/
def DropsOrder (call : ObjectCall) (schema : Schema) (s : Session) : Prop :=
  ∃ query, call.unorderedQuery? = some query ∧ ∃ field ∈ Compiler.leaves query,
    Compiler.asksOrder (.ofSchema schema false s.now) field = true

variable {call : ObjectCall} {className : String} {schema : Schema} {s : Session}
  {query : Object} {filter : Filter} {action : RowAction}

/-- Without a query whose order is not written out, no order is dropped. -/
theorem not_dropsOrder (h : call.unorderedQuery? = none) : ¬ call.DropsOrder schema s :=
  fun ⟨_, hquery, _⟩ => by cases h.symm.trans hquery

/-- A filter binds values for no order just if the call drops none. -/
theorem bindCount_eq_zero_iff (hquery : call.unorderedQuery? = some query)
    (hfilter : Filter.ofQuery (.ofSchema schema false s.now) query = .ok filter) :
    filter.orderSql.bindCount = 0 ↔ ¬ call.DropsOrder schema s := by
  rw [Filter.orderSql, Compiler.bindCount_sorts_eq_zero_iff hfilter]
  constructor
  · rintro h ⟨_, hother, field, hfield, hasks⟩
    obtain rfl := Option.some.inj (hquery.symm.trans hother)
    exact Bool.false_ne_true ((h field hfield).symm.trans hasks)
  · intro h field hfield
    exact Bool.eq_false_iff.mpr fun hasks => h ⟨query, hquery, field, hfield, hasks⟩

/-- A statement that does not write the order out is disciplined just if no order is dropped. -/
theorem disciplined_rows_iff (hquery : call.unorderedQuery? = some query)
    (hfilter : Filter.ofQuery (.ofSchema schema false s.now) query = .ok filter)
    (haction : action.writesOrder = false) (hbare : action.IsBare)
    (h : (RowStatement.inline ⟨className, filter, action⟩).Readable) :
    (Statement.rows ⟨className, filter, action⟩).Disciplined ↔ ¬ call.DropsOrder schema s := by
  rw [Statement.disciplined_rows_iff hbare h, ← bindCount_eq_zero_iff hquery hfilter]
  simp [haction]

theorem ensures_discard {α : Type} {P : Statement → Prop} {w : Work α}
    (h : Ensures P s w fun _ _ => True) :
    Ensures P s (do let _ ← w) fun _ _ => True :=
  ensures_bind h fun _ _ _ _ => ensures_pure trivial

/-- Every statement of a call is disciplined, unless the call asks for an order that it does not
write out: then no statement that has the filter is. -/
theorem ensures_disciplined_iff (call : ObjectCall) (className : String) (schema : Schema)
    (s : Session) : Ensures (fun statement => statement.Disciplined ↔ ¬ call.DropsOrder schema s) s
      (call.run className schema) fun _ _ => True := by
  cases call with
  | find settings query options =>
    refine ensures_discard (Objects.ensures_find ?_)
    intro filter action hf haction
    obtain ⟨hbare, hreads⟩ := Objects.reads_find className hf haction
    obtain ⟨columns, _, rfl⟩ := haction
    refine iff_of_true ?_ (not_dropsOrder rfl)
    exact (Statement.disciplined_rows_iff hbare hreads.readable).mpr (Or.inl rfl)
  | count settings query mayEstimate =>
    refine ensures_discard (Objects.ensures_count ?_ ?_)
    · intro filter action hf haction
      obtain rfl := haction
      have hfilter := Compiler.reads_ofQuery hf
      exact disciplined_rows_iff rfl hf rfl trivial (RowStatement.reads_count hfilter).readable
    · intro filter hf hnone
      -- rows are estimated only without a condition, and then no order is asked for either
      refine iff_of_true (Statement.disciplined_rowEstimate className) ?_
      have hsorts := Compiler.sorts_eq_nil_of_predicate_eq_none hf hnone
      exact (bindCount_eq_zero_iff rfl hf).mp (by rw [Filter.orderSql, hsorts]; rfl)
  | distinct query field =>
    refine ensures_discard (Objects.ensures_distinct ?_)
    intro filter action hf haction
    obtain ⟨hbare, hreads⟩ := Objects.reads_distinct className hf haction
    obtain rfl := haction
    exact disciplined_rows_iff rfl hf rfl hbare hreads.readable
  | aggregate pipeline =>
    refine ensures_discard (Objects.ensures_aggregate ?_)
    intro plan hplan
    have hreads := Aggregate.reads_ofPipeline className hplan
    exact iff_of_true (Statement.disciplined_aggregate hreads.readable) (not_dropsOrder rfl)
  | create object =>
    refine ensures_discard (Objects.sends_insert ?_ s)
    intro object columns hcolumns
    exact iff_of_true (Statement.disciplined_insert (Objects.readable_insertSql hcolumns))
      (not_dropsOrder rfl)
  | updateAll query update =>
    refine ensures_discard (Objects.ensures_updateAll ?_)
    intro filter action hf haction
    obtain ⟨assignments, hassignments, rfl⟩ := haction
    have hfilter := Compiler.reads_ofQuery hf
    have hreads := (Update.readable_setClause hassignments).reads
    exact disciplined_rows_iff rfl hf rfl trivial
      (RowStatement.reads_update hreads hfilter).readable
  | updateOne query update =>
    refine ensures_discard (Objects.ensures_updateOne ?_)
    intro filter action hf haction
    obtain ⟨assignments, hassignments, rfl⟩ := haction
    have hfilter := Compiler.reads_ofQuery hf
    have hreads := (Update.readable_setClause hassignments).reads
    exact disciplined_rows_iff rfl hf rfl trivial
      (RowStatement.reads_updateOne hreads hfilter).readable
  | delete query =>
    refine ensures_discard (Objects.ensures_delete ?_)
    intro filter action hf haction
    obtain rfl := haction
    have hfilter := Compiler.reads_ofQuery hf
    exact disciplined_rows_iff rfl hf rfl trivial (RowStatement.reads_delete hfilter).readable

/-- Of every call, whatever the answers to its statements are, the statements are disciplined just
if the call drops no order. -/
theorem sent_disciplined_iff (call : ObjectCall) (className : String) (schema : Schema)
    (s : Session) (statement : Statement) (hsent : statement ∈ (call.run className schema).sent s) :
    statement.Disciplined ↔ ¬ call.DropsOrder schema s :=
  (ensures_disciplined_iff call className schema s).of_mem_sent hsent

/-- A class of objects that lie somewhere. -/
def places : Schema := (Schema.ofClass "Place").withField "spot" .geoPoint

/-- The objects near to a place. -/
def nearby : Object :=
  [("spot", .obj [("$nearSphere", .obj [("__type", .str "GeoPoint"), ("latitude", .int 1),
    ("longitude", .int 2)])])]

/-- A session that knows no class and has no answers. -/
def silent : Session where
  rowAnswers := []
  changeAnswers := []
  now := ⟨0, 0⟩
  randomBytes := fun _ => Vector.replicate 10 0

/-- A search for the objects near to a place writes the order out. -/
theorem find_nearby_disciplined :
    ∃ statement, (run "Place" places (.find {} nearby {})).sent silent = [statement] ∧
      statement.values.length = 2 ∧ statement.Disciplined := by
  obtain ⟨statement, hsent, hvalues⟩ : ∃ statement,
      (run "Place" places (.find {} nearby {})).sent silent = [statement] ∧
      statement.values.length = 2 := ⟨_, rfl, rfl⟩
  refine ⟨statement, hsent, hvalues, ?_⟩
  exact (sent_disciplined_iff (.find {} nearby {}) "Place" places silent statement
    (hsent ▸ List.mem_singleton.mpr rfl)).mpr (not_dropsOrder rfl)

/-- Counting the objects near to a place binds the coordinates of the place, and there is no
placeholder for either. -/
theorem count_nearby_undisciplined :
    ∃ statement ∈ (run "Place" places (.count {} nearby false)).sent silent,
      statement.text = "SELECT count(*) AS count FROM \"Place\" WHERE \"spot\" IS NOT NULL" ∧
      statement.values = [.double 2, .double 1] ∧ ¬ statement.Disciplined := by
  obtain ⟨statement, hsent, htext, hvalues⟩ : ∃ statement,
      (run "Place" places (.count {} nearby false)).sent silent = [statement] ∧
      statement.text = "SELECT count(*) AS count FROM \"Place\" WHERE \"spot\" IS NOT NULL" ∧
      statement.values = [.double 2, .double 1] := ⟨_, rfl, by decide +kernel, rfl⟩
  refine ⟨statement, hsent ▸ List.mem_singleton.mpr rfl, htext, hvalues, ?_⟩
  intro h
  obtain ⟨lexemes, hlex, hperm⟩ := h.numbered
  have hnone : (lex statement.text).map Lexeme.placeholders = some [] := by
    rw [htext]
    decide +kernel
  have hempty : Lexeme.placeholders lexemes = [] := by simpa [hlex] using hnone
  rw [hempty, hvalues] at hperm
  exact absurd hperm.length_eq (by decide)

end ObjectCall

end ObjectStore
