import ObjectStore.Objects.Write
import ObjectStore.Proofs.Engine.Sending

/-!
# What operations on rows send

Every operation on the rows of a class compiles its query once, at the current time, and sends its
statement with the filter that comes out. So a property of the statements with that filter which do
what the operation does (`OnFilter`) is a property of all that the operation sends; creating an
object adds its insertion, and counting an estimate if there is nothing to filter by.
-/

namespace ObjectStore

namespace Objects

open Work

variable {P : Statement → Prop} {s : Session} {className : String} {schema : Schema}
  {query update : Object}

/-- All statements with the filter of a query that do something of some kind have a property. -/
def OnFilter (A : RowAction → Prop) (P : Statement → Prop) (className : String) (c : Compiler)
    (query : Object) : Prop :=
  ∀ filter action, Filter.ofQuery c query = .ok filter → A action →
    P (.rows ⟨className, filter, action⟩)

/-- What holds of all statements of a kind holds of those of a narrower kind. -/
theorem OnFilter.only {A B : RowAction → Prop} {c : Compiler} (h : OnFilter A P className c query)
    (hB : ∀ action, B action → A action) : OnFilter B P className c query :=
  fun filter action hf hb => h filter action hf (hB action hb)

/-- What a search does. -/
def IsFind (schema : Schema) (query : Object) (options : FindOptions) (action : RowAction) : Prop :=
  ∃ columns, Projection.sql schema query options.keys = .ok columns ∧
    action = .find columns (options.sort.map SortKey.sql) (options.limit.map rowCount)
      (options.skip.map rowCount)

/-- What an update of all matches does. -/
def IsUpdate (schema : Schema) (update : Object) (action : RowAction) : Prop :=
  ∃ assignments, Update.setClause schema update = .ok assignments ∧ action = .update assignments

/-- What an update of one match does. -/
def IsUpdateOne (schema : Schema) (update : Object) (action : RowAction) : Prop :=
  ∃ assignments, Update.setClause schema update = .ok assignments ∧
    action = .updateOne assignments

/-- What goes on with the filter of a query goes on from where it started, with what the query
compiles to at that time. -/
theorem ensures_bind_filterOf {α : Type} {f : Filter → Work α} {Q : α → Session → Prop}
    {ignoreCase : Bool}
    (hf : ∀ filter, Filter.ofQuery (.ofSchema schema ignoreCase s.now) query = .ok filter →
      Ensures P s (f filter) Q) :
    Ensures P s (filterOf schema query ignoreCase >>= f) Q := by
  have hfilter : Ensures P s (filterOf schema query ignoreCase) fun filter s' =>
      Filter.ofQuery (.ofSchema schema ignoreCase s.now) query = .ok filter ∧ s' = s := by
    refine ensures_bind ensures_now ?_
    intro t s' _ h
    obtain ⟨rfl, rfl⟩ := h
    exact ensures_ofResult fun filter hf => ⟨hf, rfl⟩
  refine ensures_bind hfilter ?_
  intro filter s' _ h
  obtain ⟨hof, rfl⟩ := h
  exact hf filter hof

/-! ## Reading -/

/-- A search sends one statement, with the filter of its query; a class without a table is empty. -/
theorem ensures_find {settings : Settings} {options : FindOptions}
    (h : OnFilter (IsFind schema query options) P className
      (.ofSchema schema (options.ignoreCase || settings.ignoresCase) s.now) query) :
    Ensures P s (find settings className schema query options) fun _ _ => True := by
  refine ensures_bind_filterOf fun filter hf => ensures_bind_ofResult ?_
  intro columns hc
  let action := RowAction.find columns (options.sort.map SortKey.sql)
    (options.limit.map rowCount) (options.skip.map rowCount)
  have hquery : Sends P ((Work.query (.rows ⟨className, filter, action⟩)).orIfUndefined []) :=
    sends_orIfUndefined (sends_query (h filter action hf ⟨columns, hc, rfl⟩))
  exact ensures_bind (hquery s) fun rows s₁ _ _ => sends_ofResult _ s₁

/-- Counting row by row sends the one statement that counts. -/
theorem sends_countExactly {filter : Filter} (h : P (.rows ⟨className, filter, .count⟩)) :
    Sends P (countExactly className filter) :=
  sends_bind (sends_orIfUndefined (sends_query h)) fun _ => sends_ofResult _

/-- Counting sends the count with the filter of its query, and where there is no filter and an
estimate will do, first asks for the estimate. -/
theorem ensures_count {settings : Settings} {mayEstimate : Bool}
    (h : OnFilter (· = .count) P className (.ofSchema schema false s.now) query)
    (hestimate : ∀ filter, Filter.ofQuery (.ofSchema schema false s.now) query = .ok filter →
      filter.predicate = none → P (.metadata (.rowEstimate className))) :
    Ensures P s (count settings className schema query mayEstimate) fun _ _ => True := by
  refine ensures_bind_filterOf ?_
  intro filter hf
  have hexact := sends_countExactly (h filter .count hf rfl)
  split
  -- rows are counted one by one also where there is no estimate yet
  next hnone =>
    simp only [Bool.and_eq_true, Option.isNone_iff_eq_none] at hnone
    have hsent : Sends P (estimate className) :=
      sends_bind (sends_query (hestimate filter hf hnone.1.1)) fun _ => sends_pure _
    refine ensures_bind (hsent s) ?_
    intro known s₁ _ _
    cases known with
    | some n => exact ensures_pure trivial
    | none => exact hexact s₁
  next => exact hexact s

/-- The values of a field are asked for by one statement with the filter of the query. -/
theorem ensures_distinct {field : String}
    (h : OnFilter (· = .distinct (valueSource schema field)) P className
      (.ofSchema schema false s.now) query) :
    Ensures P s (distinct className schema query field) fun _ _ => True := by
  refine ensures_bind_filterOf ?_
  intro filter hf
  have hquery := sends_query (h filter (.distinct (valueSource schema field)) hf rfl)
  refine ensures_bind (Q := fun _ _ => True) ?_ fun rows s₁ _ _ => ?_
  -- where the table or the column is missing there are no values, any other failure is passed on
  · refine ensures_recover (hquery s) ?_
    intro e s₁ _
    split
    · exact ensures_pure trivial
    · exact ensures_throw
  · exact ensures_bind (sends_ofResult _ s₁) fun _ _ _ _ => ensures_pure trivial

/-- A pipeline sends one statement, for the plan that it compiles to. -/
theorem ensures_aggregate {pipeline : List Json}
    (h : ∀ plan, Aggregate.Plan.ofPipeline (.ofSchema schema false s.now) pipeline = .ok plan →
      P (.aggregate className plan)) :
    Ensures P s (aggregate className schema pipeline) fun _ _ => True := by
  refine ensures_bind ensures_now ?_
  intro t s₁ _ ht
  obtain ⟨rfl, rfl⟩ := ht
  refine ensures_bind_ofResult ?_
  intro plan hplan
  have hquery : Sends P ((Work.query (.aggregate className plan)).orIfUndefined []) :=
    sends_orIfUndefined (sends_query (h plan hplan))
  exact ensures_bind (hquery s₁) fun rows s₂ _ _ => sends_ofResult _ s₂

/-! ## Writing -/

/-- Reading back what a statement changed sends that statement alone. -/
theorem sends_changed {statement : RowStatement} (h : P (.rows statement)) :
    Sends P (changed schema statement) :=
  sends_bind (sends_rewordFailure (sends_query h)) fun _ => sends_ofResult _

/-- All insertions of objects have a property. -/
def OnInsert (P : Statement → Prop) (className : String) (schema : Schema) : Prop :=
  ∀ object columns, insertColumns className schema object = .ok columns →
    P (.insert className columns)

/-- The insertion of an object has a property. -/
def OnInsertOf (P : Statement → Prop) (className : String) (schema : Schema) (object : Object) :
    Prop :=
  ∀ fresh columns, Update.flatten object = .ok fresh →
    insertColumns className schema fresh = .ok columns → P (.insert className columns)

/-- Creating an object sends its insertion. -/
theorem sends_insertOf {object : Object} (h : OnInsertOf P className schema object) :
    Sends P (insert className schema object) := by
  intro s
  refine ensures_bind_ofResult fun fresh hfresh => ensures_bind_ofResult ?_
  intro columns hcolumns
  have hexecute : Sends P ((execute (.insert className columns)).rewordFailure Error.ofWrite) :=
    sends_rewordFailure (sends_execute (h fresh columns hfresh hcolumns))
  exact ensures_bind (hexecute s) fun _ _ _ _ => ensures_pure trivial

/-- What holds of all insertions holds of the one of an object. -/
theorem OnInsert.of {object : Object} (h : OnInsert P className schema) :
    OnInsertOf P className schema object :=
  fun fresh columns _ hcolumns => h fresh columns hcolumns

/-- Where a property holds of all insertions, creating an object keeps it. -/
theorem sends_insert {object : Object} (h : OnInsert P className schema) :
    Sends P (insert className schema object) :=
  sends_insertOf h.of

/-- An update of all matches sends one statement, with the filter of its query. -/
theorem ensures_updateAll
    (h : OnFilter (IsUpdate schema update) P className (.ofSchema schema false s.now) query) :
    Ensures P s (updateAll className schema query update) fun _ _ => True := by
  refine ensures_bind_filterOf fun filter hf => ensures_bind_ofResult ?_
  intro assignments ha
  exact sends_changed (h filter (.update assignments) hf ⟨assignments, ha, rfl⟩) s

/-- An update of one match sends one statement, with the filter of its query. -/
theorem ensures_updateOne
    (h : OnFilter (IsUpdateOne schema update) P className (.ofSchema schema false s.now) query) :
    Ensures P s (updateOne className schema query update) fun _ _ => True := by
  refine ensures_bind_filterOf fun filter hf => ensures_bind_ofResult ?_
  intro assignments ha
  have hchanged : Sends P (changed schema ⟨className, filter, .updateOne assignments⟩) :=
    sends_changed (h filter (.updateOne assignments) hf ⟨assignments, ha, rfl⟩)
  exact ensures_bind (hchanged s) fun _ _ _ _ => ensures_pure trivial

/-- An upsert inserts what query and update describe, and where the object is already there sends
the update of one match. -/
theorem ensures_upsert
    (h : OnFilter (IsUpdateOne schema update) P className (.ofSchema schema false s.now) query)
    (hinsert : OnInsertOf P className schema (described query update)) :
    Ensures P s (upsert className schema query update) fun _ _ => True := by
  refine ensures_recover (sends_bind (sends_insertOf hinsert) (fun _ => sends_pure _) s) ?_
  intro e s₁ hs
  -- the query is compiled after the insertion failed, when the clock still stands where it stood
  split
  · refine ensures_updateOne ?_
    rwa [hs.now]
  · exact ensures_throw

/-- Deleting sends one statement, with the filter of its query, whether or not anything was deleted.
-/
theorem ensures_delete
    (h : OnFilter (· = .delete) P className (.ofSchema schema false s.now) query) :
    Ensures P s (delete className schema query) fun _ _ => True := by
  refine ensures_bind_filterOf ?_
  intro filter hf
  have hexecute : Sends P (do pure (some (← execute (.rows ⟨className, filter, .delete⟩)))) :=
    sends_bind (sends_execute (h filter .delete hf rfl)) fun _ => sends_pure _
  refine ensures_bind (Q := fun _ _ => True) ?_ fun deleted s₁ _ _ => ?_
  -- a class without a table has nothing to delete
  · refine ensures_recover (hexecute s) ?_
    intro e s₁ _
    split
    · exact ensures_pure trivial
    · exact ensures_throw
  · split
    · exact ensures_pure trivial
    · exact ensures_throw
    · exact ensures_pure trivial

end Objects

end ObjectStore
