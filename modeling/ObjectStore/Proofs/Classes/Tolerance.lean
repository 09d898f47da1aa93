import ObjectStore.Proofs.Classes.Transactions
import ObjectStore.Proofs.Engine.Tolerance

/-!
# Failures that changes of classes go on after

A change of the classes expects some of its statements to fail: what it creates may be there, what
it reads or clears may be missing. Most of these statements have a guard of their own, so the
transaction around them stays usable. Two do not: the schema document that is read before a field
is recorded, and the metadata table that is cleared when all classes go.

The record that follows the first of these has to succeed, so on an engine that aborts transactions
the change fails with it. Nothing follows the second, and the change is reported as done.
-/

namespace ObjectStore.Classes

open Work

/-- An operation that opens a transaction: a change of the classes, or the guarded creation of one
index, which is all that there is to the operation. -/
inductive Operation where
  | ofChange (change : Change)
  | ensureUnique (className : String) (fields : List String)
  | ensureIndex (className : String) (fields : List String) (name : Option String)
    (ignoreCase : Bool)

namespace Operation

/-- What is done for an operation. -/
def run : Operation → Work Unit
  | .ofChange change => change.run
  | .ensureUnique className fields => Classes.ensureUnique className fields
  | .ensureIndex className fields name ignoreCase =>
    Classes.ensureIndex className fields name ignoreCase

/-- How many transactions are open where an operation sends the statements that it does not guard.
-/
def level : Operation → Nat
  | .ofChange _ => 1
  | .ensureUnique .. | .ensureIndex .. => 0

/-- The statements that an operation sends without a guard, directly in the transaction that it
opens, with what became of each. -/
def direct (op : Operation) (s : Session) : List Sending :=
  op.run.sentAt op.level s

/-- The statement that an operation sends without a guard although its table may be missing. -/
def unguarded? : Operation → Option Statement
  | .ofChange (.addField className _ _) => some (.metadata (.document className))
  | .ofChange (.upgrade schema) => some (.metadata (.document schema.className))
  | .ofChange .deleteAll => some (.metadata .forgetAll)
  | _ => none

/-- A statement failed for lack of a table, and the operation passes over that. -/
def PassesOver (op : Operation) (sending : Sending) : Prop :=
  op.unguarded? = some sending.1 ∧ sending.2.isUndefinedTable

end Operation

/-! ## Steps -/

variable {P : Sending → Prop}

/-- A change of the metadata table sends its statement directly, and fails as it does. -/
theorem answer_changeMetadata (statement : MetadataStatement) :
    Directly (IsAnswer (.metadata statement)) (changeMetadata statement) :=
  directly_map_answer (directly_execute _) fun _ => PUnit.unit

/-- Creating a join table is guarded. -/
theorem guarded_createJoinTable (table : JoinTable) : Guarded (createJoinTable table) :=
  guarded_bind (guarded_executeTolerant _ _) fun _ => guarded_pure _

/-- Creating the tables of a class succeeds only with statements under guards. -/
theorem recovers_createTables (schema : Schema) : Recovers P (createTables schema) := by
  have hjoin : Recovers P (schema.joinTables.forM createJoinTable) :=
    recovers_forM fun table => (guarded_createJoinTable table).recovers
  refine recovers_bind (guarded_executeTolerant _ _).recovers ?_
  intro created
  split
  · exact recovers_bind (recovers_notify _) fun _ => hjoin
  · exact hjoin

/-- Creating and recording a class has one statement without a guard, the record. -/
theorem recovers_createAndRecord (schema : Schema) : Recovers P (createAndRecord schema) :=
  recovers_bind (recovers_createTables schema) fun _ => recovers_answer (answer_changeMetadata _)

/-- A column that cannot be added for lack of its table is made up for by creating the class. -/
theorem recovers_addColumn (className field : String) (type : FieldType) (column : ColumnType) :
    Recovers P (addColumn className field type column) := by
  have hguarded : Guarded (do
      let _ ← executeTolerant (.addColumn className field column) [.duplicateColumn]
      pure false) := guarded_bind (guarded_executeTolerant _ _) fun _ => guarded_pure _
  refine recovers_recover_of_guarded hguarded ?_
  intro e
  split
  · refine recovers_bind (recovers_notify _) fun _ => ?_
    exact recovers_bind (recovers_createAndRecord _) fun _ => recovers_pure _
  · exact recovers_throw _

/-- Adding what a field needs recovers from its failures. -/
theorem recovers_addStorage (className field : String) (type : FieldType) :
    Recovers P (addStorage className field type) := by
  unfold addStorage
  split
  · exact recovers_bind (guarded_createJoinTable _).recovers fun _ => recovers_pure _
  · exact recovers_addColumn _ _ _ _

/-- Reading the document of a class passes over a metadata table that is missing. -/
theorem answer_recordsField (className field : String) :
    Directly (IsAnswerOr (.metadata (.document className)) false)
      (recordsField className field) := by
  have hrows : Directly (IsAnswerOr (.metadata (.document className)) [])
      ((Work.query (.metadata (.document className))).orIfUndefined []) :=
    directly_orIfUndefined (directly_query _)
  exact directly_map_answerOr (directly_map_answerOr hrows _) _

/-- A document that could not be read is made up for by what has to be recorded in it. -/
theorem recovers_bind_recordsField {α : Type} {className field : String} {g : Bool → Work α}
    {statement : Statement}
    (hpasses : ∀ e : Error, e.isUndefinedTable → P (.metadata (.document className), .failed e))
    (hrecorded : Recovers P (g true)) (hother : Directly (IsAnswer statement) (g false)) :
    Recovers P (recordsField className field >>= g) := by
  refine directly_bind (answer_recordsField className field) ?_ fun _ _ _ => nofun
  intro recorded direct hread
  cases hread with
  | answered hsucceeded =>
    have hg : Recovers P (g recorded) := by
      cases recorded with
      | true => exact hrecorded
      | false => exact recovers_answer hother
    exact hg.mono fun _ _ hlater hok => .succeeded hsucceeded (hlater hok)
  -- the field counts as not recorded, so the record is the statement that has to succeed
  | passedOver hundefined =>
    refine hother.mono ?_
    intro _ _ hanswer hok
    cases hanswer with
    | answered hsucceeded => exact .recovered (hpasses _ hundefined) hsucceeded .nil
    | failed => exact nomatch hok

/-- Adding what a class lacks of a field recovers from its failures. -/
theorem recovers_upgradeField {className : String}
    (hpasses : ∀ e : Error, e.isUndefinedTable → P (.metadata (.document className), .failed e))
    (existing : List String) (field : String × FieldType) :
    Recovers P (upgradeField className existing field) := by
  obtain ⟨name, type⟩ := field
  simp only [upgradeField]
  split
  · exact (guarded_createJoinTable _).recovers
  split
  · exact recovers_pure _
  refine recovers_bind (recovers_addStorage _ _ _) ?_
  intro created
  split
  · exact recovers_pure _
  · exact recovers_bind_recordsField hpasses (recovers_pure _) (answer_changeMetadata _)

/-- Asking for columns passes over nothing. -/
theorem recovers_tableColumns (className : String) : Recovers P (tableColumns className) :=
  recovers_bind (recovers_answer (directly_query _)) fun _ => recovers_ofResult _

/-- Dropping a table passes over nothing. -/
theorem recovers_dropTable (table : String) : Recovers P (dropTable table) :=
  recovers_bind (recovers_answer (directly_execute _)) fun _ => recovers_pure _

/-- Dropping the tables of a class passes over nothing. -/
theorem recovers_dropTables (schema : Schema) : Recovers P (dropTables schema) :=
  recovers_bind (recovers_dropTable _) fun _ =>
    recovers_forM fun table => recovers_dropTable table.name

/-- Dropping columns is guarded. -/
theorem recovers_dropColumns (className : String) (columns : List String) :
    Recovers P (dropColumns className columns) :=
  (guarded_bind (guarded_executeTolerant _ _) fun _ => guarded_pure _).recovers

/-- Creating an index is guarded. -/
theorem recovers_createIndex (className : String) (spec : IndexSpec) :
    Recovers P (createIndex className spec) :=
  (guarded_bind (guarded_executeTolerant _ _) fun _ => guarded_pure _).recovers

/-- Dropping an index passes over nothing. -/
theorem recovers_dropIndex (name : String) : Recovers P (dropIndex name) :=
  recovers_bind (recovers_answer (directly_execute _)) fun _ => recovers_pure _

/-! ## Changes as a whole -/

/-- A class that was created has had all its statements succeed, or recovered from. -/
theorem opens_create (schema : Schema) : Opens (Recovered P) (create schema) := by
  have hbody : Opens (Recovered P) (transaction (createAndRecord schema)) :=
    opens_transaction (recovers_createAndRecord schema)
  exact opens_bind_of_isQuiet hbody fun _ =>
    isQuiet_bind (isQuiet_notify _) fun _ => isQuiet_pure _

/-- A field that was added has been recorded, if the document could not be read at first. -/
theorem opens_addField {className : String}
    (hpasses : ∀ e : Error, e.isUndefinedTable → P (.metadata (.document className), .failed e))
    (field : String) (type : FieldType) :
    Opens (Recovered P) (addField className field type) := by
  have hbody : Recovers P (do
      if ← addStorage className field type then return
      if ← recordsField className field then
        throw (.internal (.fieldRecorded className field))
      recordField className field type) := by
    refine recovers_bind (recovers_addStorage _ _ _) ?_
    intro created
    split
    · exact recovers_pure _
    -- a field that is recorded already makes the change fail, whatever comes after
    · refine recovers_bind_recordsField hpasses ?_ (answer_changeMetadata _)
      refine recovers_bind (recovers_throw _) ?_
      intro _
      exact recovers_answer (answer_changeMetadata _)
  exact opens_transaction hbody

/-- An upgrade recovers from every failure that it passes over. -/
theorem opens_upgrade {schema : Schema} (hpasses : ∀ e : Error, e.isUndefinedTable →
      P (.metadata (.document schema.className), .failed e)) :
    Opens (Recovered P) (upgrade schema) := by
  refine opens_transaction (recovers_bind (recovers_createTables schema) ?_)
  intro _
  refine recovers_bind (recovers_tableColumns _) ?_
  intro existing
  exact recovers_forM (recovers_upgradeField hpasses existing)

/-- A class that was deleted has been dropped and forgotten. -/
theorem opens_delete (className : String) : Opens (Recovered P) (delete className) := by
  refine opens_bind_of_isQuiet (opens_transaction ?_) fun _ => isQuiet_notify _
  exact recovers_bind (recovers_dropTable _) fun _ => recovers_answer (answer_changeMetadata _)

/-- Fields that were deleted have been forgotten and dropped. -/
theorem opens_deleteFields (schema : Schema) (names : List String) :
    Opens (Recovered P) (deleteFields schema names) := by
  have hrelations : ∀ relations : List (String × FieldType), Recovers P
      (relations.forM fun field => dropTable (JoinTable.mk schema.className field.1).name) :=
    fun _ => recovers_forM fun _ => recovers_dropTable _
  refine opens_bind_of_isQuiet (opens_transaction ?_) fun _ => isQuiet_pure _
  refine recovers_bind (recovers_answer (answer_changeMetadata _)) fun _ => ?_
  split
  · exact recovers_bind (recovers_dropColumns _ _) fun _ => hrelations _
  · exact hrelations _

/-- Indexes that were changed have been created, dropped and recorded. -/
theorem opens_changeIndexes (className : String) (submitted : Object)
    (existing : Dict (Dict Json)) (fields : Dict FieldType) :
    Opens (Recovered P) (changeIndexes className submitted existing fields) := by
  refine opens_bind_of_reads (keeps_ofResult Event.grammar_reads _) ?_
  intro changes
  have hcreate : Recovers P (changes.created.forM (createIndex className)) :=
    recovers_forM (recovers_createIndex className)
  have hdrop : Recovers P (changes.deleted.forM dropIndex) := recovers_forM recovers_dropIndex
  refine opens_bind_of_isQuiet (opens_transaction ?_) fun _ => isQuiet_pure _
  refine recovers_bind hcreate fun _ => ?_
  exact recovers_bind hdrop fun _ => recovers_answer (answer_changeMetadata _)

/-- All but the last of the statements succeeded, and so did that one, or it cleared a metadata
table that is missing. -/
def MayForgetNothing (direct : List Sending) : Prop :=
  ∃ dropped last, direct = dropped ++ [last] ∧ (∀ sending ∈ dropped, sending.2.succeeded)
    ∧ (last.2.succeeded ∨ last.1 = .metadata .forgetAll ∧ last.2.isUndefinedTable)

/-- Clearing the metadata table comes last, and nothing makes up for its failure. -/
theorem opens_deleteAll : Opens MayForgetNothing deleteAll := by
  have hread : Keeps Event.Reads allRecorded :=
    keeps_bind Event.grammar_reads
      (keeps_orIfUndefined Event.grammar_reads (reads_query nofun))
      fun _ => keeps_ofResult Event.grammar_reads _
  have hdrop : ∀ schemas : List Schema,
      Recovers (fun _ => False) (schemas.forM dropTables) :=
    fun _ => recovers_forM recovers_dropTables
  have hforget : Directly (IsAnswerOr (.metadata .forgetAll) ()) forgetAll :=
    directly_orIfUndefined (answer_changeMetadata _)
  refine opens_bind_of_reads hread ?_
  intro schemas
  refine opens_bind_of_isQuiet (opens_transaction ?_) fun _ => isQuiet_notify _
  -- all tables are dropped before the metadata table is cleared
  refine directly_bind (hdrop schemas) ?_ fun _ _ _ => nofun
  intro _ dropped hdropped
  have hsucceeded : ∀ sending ∈ dropped, sending.2.succeeded := by
    intro sending hmem
    exact ((hdropped rfl).succeeded_or sending hmem).resolve_right id
  refine hforget.mono ?_
  intro result later hanswer hok
  cases hanswer with
  | answered hlast => exact ⟨dropped, _, rfl, hsucceeded, .inl hlast⟩
  | passedOver hundefined => exact ⟨dropped, _, rfl, hsucceeded, .inr ⟨rfl, hundefined⟩⟩
  | failed => exact nomatch hok

/-! ## Operations as a whole -/

/-- A single guarded statement is all that the creation of an index sends. -/
theorem guarded_ensure {reword : Error → Error} (statement : TableStatement)
    (tolerated : List SqlState) : Guarded (rewordFailure reword (do
      let _ ← executeTolerant statement tolerated)) := by
  refine guarded_recover ?_ fun _ => directly_throw rfl
  exact guarded_bind (guarded_executeTolerant _ _) fun _ => guarded_pure _

/-- Every operation but the deletion of all classes recovers from the failures that it passes
over. -/
theorem Operation.recovered_direct (op : Operation) (hop : op ≠ .ofChange .deleteAll) (s : Session)
    (hok : (op.run.run s).1.isOk) : Recovered op.PassesOver (op.direct s) := by
  have hdiscard : ∀ {α : Type} {w : Work α} {P : Sending → Prop}, Opens (Recovered P) w →
      Opens (Recovered P) (do let _ ← w) :=
    fun h => opens_bind_of_isQuiet h fun _ => isQuiet_pure _
  -- an index alone is guarded as a whole; a change goes by the lemma for it
  cases op with
  | ensureUnique className fields =>
    have hnone : (Operation.ensureUnique className fields).direct s = [] :=
      (guarded_ensure _ _).sentAt_zero s
    exact hnone ▸ .nil
  | ensureIndex className fields name ignoreCase =>
    have hnone : (Operation.ensureIndex className fields name ignoreCase).direct s = [] :=
      (guarded_ensure _ _).sentAt_zero s
    exact hnone ▸ .nil
  | ofChange change =>
    refine Opens.sentAt_one (w := change.run) ?_ hok
    cases change with
    | create schema => exact hdiscard (opens_create schema)
    | createTable schema => exact opens_transaction (recovers_createTables schema)
    | addField className field type =>
      exact opens_addField (fun _ hundefined => ⟨rfl, hundefined⟩) field type
    | upgrade schema => exact opens_upgrade fun _ hundefined => ⟨rfl, hundefined⟩
    | delete className => exact opens_delete className
    | deleteAll => exact absurd rfl hop
    | deleteFields schema names => exact hdiscard (opens_deleteFields schema names)
    | createIndexes className specs =>
      exact opens_transaction (recovers_forM (recovers_createIndex className))
    | dropIndexes names => exact opens_transaction (recovers_forM recovers_dropIndex)
    | changeIndexes className submitted existing fields =>
      exact hdiscard (opens_changeIndexes className submitted existing fields)

/-- A statement that is passed over did not succeed. -/
theorem Operation.PassesOver.not_succeeded {op : Operation} {sending : Sending}
    (h : op.PassesOver sending) : ¬ sending.2.succeeded := by
  obtain ⟨statement, outcome⟩ := sending
  obtain ⟨-, hundefined⟩ := h
  cases outcome with
  | rows _ => exact nomatch hundefined
  | affected _ => exact nomatch hundefined
  | failed _ => exact nofun

/-- What succeeds although a statement failed directly in its transaction passed over that
failure. -/
theorem Operation.succeeded_or_passesOver (op : Operation) (s : Session)
    (hok : (op.run.run s).1.isOk) :
    ∀ sending ∈ op.direct s, sending.2.succeeded ∨ op.PassesOver sending := by
  by_cases hop : op = .ofChange .deleteAll
  · subst hop
    obtain ⟨dropped, last, hdirect, hdropped, hlast⟩ := opens_deleteAll.sentAt_one hok
    have hall : ∀ sending ∈ dropped ++ [last], sending.2.succeeded
        ∨ (Operation.ofChange .deleteAll).PassesOver sending := by
      refine List.forall_mem_append.mpr ⟨fun sending hmem => .inl (hdropped sending hmem), ?_⟩
      exact List.forall_mem_singleton.mpr
        (hlast.imp_right fun ⟨hforget, hundefined⟩ => ⟨hforget ▸ rfl, hundefined⟩)
    exact fun sending hmem => hall sending (hdirect ▸ hmem)
  · exact (op.recovered_direct hop s hok).succeeded_or

/-- If an operation succeeds, all statements that stand directly in its transaction succeeded,
unless the operation passed over one that failed for lack of its table. On an engine that aborts
transactions that does not happen to any operation but the deletion of all classes: wherever else a
failure is passed over, a statement that has to succeed comes next. -/
theorem Operation.direct_succeeded_iff (op : Operation) (s : Session)
    (hok : (op.run.run s).1.isOk) :
    ((∀ sending ∈ op.direct s, sending.2.succeeded) ↔
        ∀ sending ∈ op.direct s, ¬ op.PassesOver sending)
      ∧ (op ≠ .ofChange .deleteAll → Aborts (op.direct s) →
        ∀ sending ∈ op.direct s, sending.2.succeeded) := by
  refine ⟨⟨?_, ?_⟩, ?_⟩
  · intro hall sending hmem hpasses
    exact hpasses.not_succeeded (hall sending hmem)
  · intro hnone sending hmem
    exact (op.succeeded_or_passesOver s hok sending hmem).resolve_right (hnone sending hmem)
  · intro hop haborts
    exact (op.recovered_direct hop s hok).succeeded_of_aborts haborts

/-- An engine that has answers to the statements that return rows and to those that change
something. -/
def scripted (rowAnswers : List (Result (List Row))) (changeAnswers : List (Result Nat)) :
    Session where
  rowAnswers := rowAnswers
  changeAnswers := changeAnswers
  now := ⟨0, 0⟩
  randomBytes := fun _ => Vector.replicate 10 0

/-- The failure of a statement on the metadata table, if there is none. -/
def metadataMissing : Error :=
  .storage "relation \"_SCHEMA\" does not exist" (some .undefinedTable)

/-- A field is recorded in a document that is there, and all that is sent for it succeeds. -/
theorem addField_direct_succeeded :
    let op := Operation.ofChange (.addField "Post" "title" .string)
    let s := scripted [.ok [[("schema", .json (some (.obj [("fields", .obj [])])))]]] []
    (op.run.run s).1.isOk = true ∧ ((∀ sending ∈ op.direct s, sending.2.succeeded) ↔
        ∀ sending ∈ op.direct s, ¬ op.PassesOver sending)
      ∧ Aborts (op.direct s) ∧ ∀ sending ∈ op.direct s, sending.2.succeeded := by
  intro op s
  obtain ⟨rows, hdirect⟩ : ∃ rows, op.direct s =
      [(.metadata (.document "Post"), .rows rows),
        (.metadata (.recordField "Post" "title" .string), .affected 1)] := ⟨_, rfl⟩
  have haborts : Aborts (op.direct s) := by
    rw [hdirect]
    exact .cons (fun _ _ => nofun) (.cons (List.forall_mem_nil _) .nil)
  have hop : Operation.ofChange (.addField "Post" "title" .string) ≠ .ofChange .deleteAll := nofun
  have h := op.direct_succeeded_iff s rfl
  exact ⟨rfl, h.1, haborts, h.2 hop haborts⟩

/-- The deletion of all classes succeeds on an engine that has dropped a table and then aborted the
transaction. -/
theorem deleteAll_succeeds_aborted :
    let op := Operation.ofChange .deleteAll
    let s := scripted [.ok [[("className", .text (some "Post")), ("schema", .json none)]]]
      [.ok 0, .error metadataMissing]
    (op.run.run s).1.isOk = true ∧ Aborts (op.direct s) ∧
      op.direct s = [(.table (.dropTable "Post"), .affected 0),
        (.metadata .forgetAll, .failed metadataMissing)] := by
  intro op s
  have hdirect : op.direct s = [(.table (.dropTable "Post"), .affected 0),
      (.metadata .forgetAll, .failed metadataMissing)] := rfl
  refine ⟨rfl, ?_, hdirect⟩
  rw [hdirect]
  exact .cons (fun _ _ => nofun) (.cons (List.forall_mem_nil _) .nil)

end ObjectStore.Classes
