import ObjectStore.Proofs.Classes.Tolerance
import ObjectStore.Proofs.Dict

/-!
# Added fields

Adding a field has two effects: the place that the field is stored in, and its record in the
metadata table. Others may be at the same time at either, so a statement that finds its work done is
passed over. What it finds is not always what is wanted: a column of the name is the column of the
field, but a table of the name need not have the column, and a class that is recorded need not have
the field.

`Added` is what is sent when adding a field succeeds: one of three ways to make the place, and the
record, which comes with the class if the class is created for the field. `addField_adds_iff` reads
off when a field that was added has its place, and when it is recorded.
-/

namespace ObjectStore

namespace Classes

open Work

variable {className field : String} {type : FieldType} {column : ColumnType} {log : List Sending}

/-! ## The class that is created for a field -/

/-- The table of a class has the column of a field, with its own type. In place of the `ACL` there
are two columns of groups, and these are of one type whatever is asked for. -/
def HasOwnColumn (field : String) (type : FieldType) : Prop :=
  field ≠ aclField ∧ (field = readColumn ∨ field = writeColumn → type.column? = some .textArray)

theorem isRelation_of_mem_classWithField (hcolumn : type.column? = some column)
    {entry : String × FieldType} (h : entry ∈ (classWithField className field type).fields) :
    entry.2.isRelation = false := by
  have hdefault : ∀ entry ∈ (Schema.ofClass className).fields, entry.2.isRelation = false := by
    simp only [Schema.ofClass]
    decide
  rcases Dict.mem_insert h with rfl | hmem
  · cases type with
    | relation => exact nomatch hcolumn
    | _ => rfl
  · exact hdefault entry hmem

/-- A class that is created for a column has no join tables. -/
theorem joinTables_classWithField (hcolumn : type.column? = some column) :
    (classWithField className field type).joinTables = [] := by
  have hnone : (classWithField className field type).fields.filter
      (fun field => field.2.isRelation) = [] :=
    List.filter_eq_nil_iff.mpr fun entry hmem => by
      simp [isRelation_of_mem_classWithField hcolumn hmem]
  rw [Schema.joinTables, Schema.relationFields, hnone]
  rfl

theorem mem_columns_iff {schema : Schema} (hsorted : schema.fields.Sorted) {name : String} :
    (name, column) ∈ columns schema ↔
      ∃ type, schema.forStorage.fields.get? name = some type ∧ type.column? = some column := by
  have hstored : schema.forStorage.fields.Sorted :=
    ((hsorted.erase aclField).insert _ _).insert _ _
  simp only [columns, List.mem_filterMap, Prod.exists, Option.map_eq_some_iff, Prod.mk.injEq]
  constructor
  · intro ⟨name', type, hmem, _, hcolumn, hname, heq⟩
    subst hname heq
    exact ⟨type, hstored.get?_eq_some_iff.mpr hmem, hcolumn⟩
  · intro ⟨type, hget, hcolumn⟩
    exact ⟨name, type, hstored.get?_eq_some_iff.mp hget, column, hcolumn, rfl, rfl⟩

/-- The table of the class that is created for a column need not have the column as it was asked
for. -/
theorem mem_columns_classWithField_iff (className field : String)
    (hcolumn : type.column? = some column) :
    (field, column) ∈ columns (classWithField className field type) ↔
      HasOwnColumn field type := by
  have hsorted : (classWithField className field type).fields.Sorted :=
    (Dict.sorted_ofList _).insert field type
  have hget : (classWithField className field type).fields.get? field = some type :=
    Dict.get?_insert_self _ _ _
  rw [mem_columns_iff hsorted, Schema.get?_forStorage, hget, HasOwnColumn, hcolumn]
  by_cases hgroups : field = readColumn ∨ field = writeColumn
  · have hacl : field ≠ aclField := by
      rcases hgroups with rfl | rfl <;> decide
    simp [hgroups, hacl, FieldType.column?, eq_comm]
  · rw [if_neg hgroups]
    by_cases hacl : field = aclField
    · simp [hacl]
    · simp [hgroups, hacl, hcolumn]

/-! ## What is sent for a field -/

/-- What is sent for the place of a field, if this succeeds: its join table or its column, or the
class if there is no table for the column. -/
inductive Placed (className field : String) (type : FieldType) : Bool → List Sending → Prop
  | joined {outcome : Outcome} :
    type.column? = none → outcome.succeededOr tableRaces →
      Placed className field type false [(.table (.createJoinTable ⟨className, field⟩), outcome)]
  | extended {column : ColumnType} {outcome : Outcome} :
    type.column? = some column → outcome.succeededOr [.duplicateColumn] →
      Placed className field type false [(.table (.addColumn className field column), outcome)]
  | created {column : ColumnType} {e : Error} {outcome : Outcome} (count : Nat) :
    type.column? = some column → e.isUndefinedTable → outcome.succeededOr tableRaces →
      Placed className field type true
        [(.table (.addColumn className field column), .failed e),
          (.table (.createTable className (columns (classWithField className field type))),
            outcome),
          (.metadata (.record (classWithField className field type)), .affected count)]

/-- What is sent for a field, if this succeeds. -/
inductive Added (className field : String) (type : FieldType) : List Sending → Prop
  | withClass {log : List Sending} :
    Placed className field type true log → Added className field type log
  | recorded {log : List Sending} {answer : Outcome} (count : Nat) :
    Placed className field type false log → (∀ count, answer ≠ .affected count) →
      Added className field type (log ++ [(.metadata (.document className), answer),
        (.metadata (.recordField className field type), .affected count)])

theorem logs_changeMetadata (statement : MetadataStatement) :
    LogsIfOk (fun _ log => ∃ count, log = [(.metadata statement, .affected count)])
      (changeMetadata statement) := by
  have hsent : LogsIfOk (fun _ log => ∃ count, log = [(.metadata statement, .affected count)])
      (execute (.metadata statement)) :=
    logs_execute (fun count _ _ => ⟨count, rfl⟩) fun _ _ => nofun
  exact logsIfOk_map hsent fun _ => PUnit.unit

theorem logs_createJoinTable (table : JoinTable) :
    LogsIfOk (fun _ log => ∃ outcome : Outcome, outcome.succeededOr tableRaces ∧
      log = [(.table (.createJoinTable table), outcome)]) (createJoinTable table) :=
  logsIfOk_map (logsIfOk_executeTolerant _ _) fun _ => PUnit.unit

/-- The tables of a class without join tables are one table. -/
theorem logs_createTables {schema : Schema} (hjoin : schema.joinTables = []) :
    LogsIfOk (fun _ log => ∃ outcome : Outcome, outcome.succeededOr tableRaces ∧
      log = [(.table (.createTable schema.className (columns schema)), outcome)])
      (createTables schema) := by
  unfold createTables
  rw [hjoin]
  refine logsIfOk_bind (logsIfOk_executeTolerant _ _) ?_
  intro created log hlog
  rw [← List.append_nil log] at hlog
  have hrest : LogsIfOk (fun _ later => ∃ outcome : Outcome, outcome.succeededOr tableRaces ∧
      log ++ later = [(.table (.createTable schema.className (columns schema)), outcome)])
      (pure () : Work Unit) := logsIfOk_pure hlog
  split
  · exact logsIfOk_notify_bind hrest
  · exact hrest

/-- A class without join tables is created in two statements. -/
theorem logs_createAndRecord {schema : Schema} (hjoin : schema.joinTables = []) :
    LogsIfOk (fun _ log => ∃ (outcome : Outcome) (count : Nat), outcome.succeededOr tableRaces ∧
      log = [(.table (.createTable schema.className (columns schema)), outcome),
        (.metadata (.record schema), .affected count)]) (createAndRecord schema) := by
  refine logsIfOk_bind (logs_createTables hjoin) ?_
  intro _ log hlog
  obtain ⟨outcome, hpassed, rfl⟩ := hlog
  refine (logs_changeMetadata (.record schema)).mono ?_
  intro _ later hlater
  obtain ⟨count, rfl⟩ := hlater
  exact ⟨outcome, count, hpassed, rfl⟩

theorem logs_addColumn (className field : String) (hcolumn : type.column? = some column) :
    LogsIfOk (Placed className field type) (addColumn className field type column) := by
  let statement : TableStatement := .addColumn className field column
  have hbody : Logs (fun result log => match result with
      | .ok created => Placed className field type created log
      | .error e => log = [(.table statement, .failed e)]) (do
        let _ ← executeTolerant statement [.duplicateColumn]
        pure false) := by
    refine logs_bind (logs_executeTolerant statement [.duplicateColumn]) ?_ ?_
    · intro kept log hlog
      have hpassed : ∃ outcome : Outcome, outcome.succeededOr [.duplicateColumn] ∧
          log = [(.table statement, outcome)] := by
        cases hlog with
        | succeeded count => exact ⟨.affected count, rfl, rfl⟩
        | @passed e htolerated => exact ⟨.failed e, htolerated, rfl⟩
      obtain ⟨outcome, hpassed, rfl⟩ := hpassed
      exact logs_pure (.extended hcolumn hpassed)
    · intro e log hlog
      cases hlog with
      | failed => rfl
  refine logs_recover hbody (fun created log hlog _ ha => Except.ok.inj ha ▸ hlog) ?_
  intro e log hlog
  subst hlog
  split
  next hundefined =>
    refine logsIfOk_notify_bind ?_
    refine logsIfOk_bind (logs_createAndRecord (joinTables_classWithField hcolumn))
      fun _ log hlog => logsIfOk_pure ?_
    obtain ⟨outcome, count, hpassed, rfl⟩ := hlog
    exact .created count hcolumn hundefined hpassed
  next => exact logsIfOk_throw e

theorem logs_addStorage (className field : String) (type : FieldType) :
    LogsIfOk (Placed className field type) (addStorage className field type) := by
  unfold addStorage
  split
  next hcolumn =>
    refine logsIfOk_bind (logs_createJoinTable _) fun _ log hlog => logsIfOk_pure ?_
    obtain ⟨outcome, hpassed, rfl⟩ := hlog
    exact .joined hcolumn hpassed
  next column hcolumn => exact logs_addColumn className field hcolumn

/-- Reading the document of a class affects nothing. -/
theorem logs_recordsField (className field : String) :
    LogsIfOk (fun _ log => ∃ answer : Outcome, (∀ count, answer ≠ .affected count) ∧
      log = [(.metadata (.document className), answer)]) (recordsField className field) := by
  let P : List Sending → Prop := fun log => ∃ answer : Outcome,
    (∀ count, answer ≠ .affected count) ∧ log = [(.metadata (.document className), answer)]
  have hquery : Logs (fun _ log => P log) (Work.query (.metadata (.document className))) :=
    logs_query (fun rows => ⟨.rows rows, nofun, rfl⟩) fun e => ⟨.failed e, nofun, rfl⟩
  have hrows : LogsIfOk (fun _ => P)
      ((Work.query (.metadata (.document className))).orIfUndefined []) := by
    refine logs_recover hquery (fun _ _ hlog _ _ => hlog) ?_
    intro e log hlog
    split
    · refine logsIfOk_pure ?_
      rw [List.append_nil]
      exact hlog
    · exact logsIfOk_throw e
  have hdocument : LogsIfOk (fun _ => P) (document? className) := logsIfOk_map hrows _
  exact logsIfOk_map hdocument _

theorem logs_addField (className field : String) (type : FieldType) :
    LogsIfOk (fun _ => Added className field type) (addField className field type) := by
  refine logs_transaction ?_
  refine logsIfOk_bind (logs_addStorage className field type) ?_
  intro created log hplaced
  cases created with
  | true => exact logsIfOk_pure (List.append_nil log |>.symm ▸ .withClass hplaced)
  | false =>
    refine logsIfOk_bind (logs_recordsField className field) ?_
    intro recorded read hread
    obtain ⟨answer, hanswer, rfl⟩ := hread
    cases recorded with
    | true => exact logsIfOk_throw _
    | false =>
      refine (logs_changeMetadata _).mono ?_
      intro _ later hlater
      obtain ⟨count, rfl⟩ := hlater
      exact .recorded count hplaced hanswer

/-! ## Where a field is, and where it is recorded -/

/-- A statement made the place of a field, or found the column or the join table there. -/
def MakesPlace (className field : String) (type : FieldType) : Sending → Prop
  | (.table (.createJoinTable table), outcome) =>
    table = ⟨className, field⟩ ∧ type.column? = none ∧ outcome.succeededOr tableRaces
  | (.table (.addColumn table name column), outcome) =>
    table = className ∧ name = field ∧ type.column? = some column ∧
      outcome.succeededOr [.duplicateColumn]
  | (.table (.createTable table columns), outcome) =>
    table = className ∧ (∃ column, type.column? = some column ∧ (field, column) ∈ columns) ∧
      outcome.succeeded
  | _ => False

/-- A statement recorded a field: it wrote it to the document of the class, or the document with the
field, and there was a row for what it wrote. -/
def MakesRecord (className field : String) (type : FieldType) : Sending → Prop
  | (.metadata (.recordField name recorded recordedType), .affected count) =>
    name = className ∧ recorded = field ∧ recordedType = type ∧ 0 < count
  | (.metadata (.record schema), .affected count) =>
    schema.className = className ∧ schema.field? field = some type ∧ 0 < count
  | _ => False

/-- A column or a join table of its own is the place of a field. -/
theorem Placed.ownPlace (h : Placed className field type false log) :
    ∃ sending, log = [sending] ∧ MakesPlace className field type sending ∧
      (∀ table columns, sending.1 ≠ .table (.createTable table columns)) ∧
      ∀ statement, sending.1 ≠ .metadata statement := by
  cases h with
  | joined hcolumn hpassed =>
    refine ⟨_, rfl, ?_, by simp, by simp⟩
    exact ⟨rfl, hcolumn, hpassed⟩
  | extended hcolumn hpassed =>
    refine ⟨_, rfl, ?_, by simp, by simp⟩
    exact ⟨rfl, rfl, hcolumn, hpassed⟩

/-- The table of a class that was created for a field is the place of the field if it is new. -/
theorem makesPlace_createTable_iff (className field : String)
    (hcolumn : type.column? = some column) (outcome : Outcome) :
    MakesPlace className field type
        (.table (.createTable className (columns (classWithField className field type))), outcome) ↔
      outcome.succeeded ∧ HasOwnColumn field type := by
  have hown := mem_columns_classWithField_iff className field hcolumn
  simp [MakesPlace, hcolumn, hown, and_comm]

/-- A column that there is no table for is not the place of a field. -/
theorem not_makesPlace_of_isUndefinedTable (className field : String) (type : FieldType)
    (column : ColumnType) {e : Error} (h : e.isUndefinedTable) :
    ¬ MakesPlace className field type (.table (.addColumn className field column), .failed e) := by
  intro ⟨_, _, _, hpassed⟩
  have hstate : e.state? = some .undefinedTable := by
    simpa [Error.isUndefinedTable, Error.isState] using h
  simp [Outcome.succeededOr, Error.isState, hstate] at hpassed

/-- Where a field is that was added. -/
theorem Added.makesPlace_iff (h : Added className field type log) :
    (∃ sending ∈ log, MakesPlace className field type sending) ↔
      ∀ table columns outcome, (.table (.createTable table columns), outcome) ∈ log →
        outcome.succeeded ∧ HasOwnColumn field type := by
  cases h with
  | recorded count hplaced =>
    obtain ⟨sending, rfl, hmakes, hother, -⟩ := hplaced.ownPlace
    refine iff_of_true ⟨sending, by simp, hmakes⟩ ?_
    intro table columns outcome hmem
    rcases List.mem_append.mp hmem with hplace | hrecord
    · exact absurd (congrArg Prod.fst (List.mem_singleton.mp hplace)).symm (hother _ _)
    · simp at hrecord
  | withClass hplaced =>
    cases hplaced with
    | @created column e outcome count hcolumn hundefined hpassed =>
      have hmissing := not_makesPlace_of_isUndefinedTable className field type column hundefined
      have htable := makesPlace_createTable_iff className field hcolumn outcome
      have hrecord : ¬ MakesPlace className field type
          (.metadata (.record (classWithField className field type)), .affected count) := id
      constructor
      · intro ⟨sending, hmem, hmakes⟩ table columns outcome' hmem'
        obtain ⟨-, -, rfl⟩ : table = className ∧ columns = _ ∧ outcome' = outcome := by
          simpa [and_assoc] using hmem'
        rcases List.mem_cons.mp hmem with rfl | hmem
        · exact absurd hmakes hmissing
        rcases List.mem_cons.mp hmem with rfl | hmem
        · exact htable.mp hmakes
        · exact absurd (List.mem_singleton.mp hmem ▸ hmakes) hrecord
      · intro hall
        have hkept := hall className (columns (classWithField className field type)) outcome
          (by simp)
        exact ⟨_, by simp, htable.mpr hkept⟩

theorem MakesRecord.metadata {sending : Sending} (h : MakesRecord className field type sending) :
    ∃ statement, sending.1 = .metadata statement := by
  obtain ⟨statement, outcome⟩ := sending
  cases statement with
  | metadata statement => exact ⟨statement, rfl⟩
  | _ => exact h.elim

/-- Where a field that was added is recorded. -/
theorem Added.makesRecord_iff (h : Added className field type log) :
    (∃ sending ∈ log, MakesRecord className field type sending) ↔
      ∀ statement, (.metadata statement, .affected 0) ∉ log := by
  cases h with
  | @recorded _ answer count hplaced hanswer =>
    obtain ⟨place, rfl, -, -, hother⟩ := hplaced.ownPlace
    have hread : ¬ MakesRecord className field type (.metadata (.document className), answer) := id
    have hmakes : MakesRecord className field type
        (.metadata (.recordField className field type), .affected count) ↔ 0 < count := by
      simp [MakesRecord]
    rw [List.singleton_append]
    constructor
    · intro ⟨sending, hmem, hrecords⟩ statement hnone
      have hcount : 0 < count := by
        rcases List.mem_cons.mp hmem with rfl | hmem
        · obtain ⟨statement, hstatement⟩ := hrecords.metadata
          exact absurd hstatement (hother statement)
        rcases List.mem_cons.mp hmem with rfl | hmem
        · exact absurd hrecords hread
        · exact hmakes.mp (List.mem_singleton.mp hmem ▸ hrecords)
      rcases List.mem_cons.mp hnone with heq | hnone
      · exact hother statement (congrArg Prod.fst heq).symm
      rcases List.mem_cons.mp hnone with heq | hnone
      · exact hanswer 0 (congrArg Prod.snd heq).symm
      · have hzero : Outcome.affected 0 = .affected count :=
          congrArg Prod.snd (List.mem_singleton.mp hnone)
        cases hzero
        exact Nat.lt_irrefl 0 hcount
    · intro hnone
      have hcount : count ≠ 0 := fun hzero =>
        hnone (.recordField className field type) (by simp [hzero])
      exact ⟨_, by simp, hmakes.mpr (Nat.pos_of_ne_zero hcount)⟩
  | withClass hplaced =>
    cases hplaced with
    | @created column e outcome count hcolumn hundefined hpassed =>
      have hfield : (classWithField className field type).field? field = some type :=
        Dict.get?_insert_self _ _ _
      have hname : (classWithField className field type).className = className := rfl
      simp [MakesRecord, hfield, hname, Nat.pos_iff_ne_zero, eq_comm]

variable (className field type)

/-- A field that was added has its place if and only if the class was not created for it, or its
table was, with a column of the field's own. It is recorded if and only if the statement that
records it was not without effect. -/
theorem addField_adds_iff (s : Session) (hok : ((addField className field type).run s).1.isOk) :
    let log := (addField className field type).log s
    ((∃ sending ∈ log, MakesPlace className field type sending) ↔
        ∀ table columns outcome, (.table (.createTable table columns), outcome) ∈ log →
          outcome.succeeded ∧ HasOwnColumn field type) ∧
      ((∃ sending ∈ log, MakesRecord className field type sending) ↔
        ∀ statement, (.metadata statement, .affected 0) ∉ log) := by
  intro log
  have hadded : Added className field type log := by
    cases hresult : ((addField className field type).run s).1 with
    | error e => rw [hresult] at hok; exact nomatch hok
    | ok => exact (logs_addField className field type).log s _ hresult
  exact ⟨hadded.makesPlace_iff, hadded.makesRecord_iff⟩

/-- The engine tells that there is no table for a class. -/
def clubMissing : Error := .storage "relation \"Club\" does not exist" (some .undefinedTable)

/-- The engine tells that there is a table for a class. -/
def clubThere : Error := .storage "relation \"Club\" already exists" (some .duplicateTable)

/-- A class that has no table is created with the field that is added to it. -/
theorem newClass_has_field :
    let s := scripted [] [.error clubMissing]
    let log := (addField "Club" "motto" .string).log s
    ((addField "Club" "motto" .string).run s).1.isOk ∧
      (∃ sending ∈ log, MakesPlace "Club" "motto" .string sending) ∧
      ∃ sending ∈ log, MakesRecord "Club" "motto" .string sending := by
  intro s log
  have hok : ((addField "Club" "motto" .string).run s).1.isOk := rfl
  have hlog : log = [(.table (.addColumn "Club" "motto" .text), .failed clubMissing),
    (.table (.createTable "Club" (columns (classWithField "Club" "motto" .string))), .affected 1),
    (.metadata (.record (classWithField "Club" "motto" .string)), .affected 1)] := rfl
  have h := addField_adds_iff "Club" "motto" .string s hok
  refine ⟨hok, h.1.mpr ?_, h.2.mpr ?_⟩
  · change ∀ table columns outcome, _ ∈ log → _
    rw [hlog]
    intro table columns outcome hmem
    obtain ⟨-, -, rfl⟩ : table = "Club" ∧ columns = _ ∧ outcome = .affected 1 := by
      simpa [and_assoc] using hmem
    exact ⟨rfl, by decide, by decide⟩
  · change ∀ statement, _ ∉ log
    rw [hlog]
    simp

/-- A field is added to a class that others create without it, right after its table was missed;
then neither the column nor the record is made. If a class has a table but is not recorded, the
column is made and the record is not. In both cases the field counts as added. -/
theorem lateField_lost :
    let late := scripted [] [.error clubMissing, .error clubThere, .ok 0]
    let unknown := scripted [] [.ok 1, .ok 0]
    let add := addField "Club" "motto" .string
    (add.run late).1.isOk ∧ (add.run unknown).1.isOk ∧
      (∀ sending ∈ add.log late, ¬ MakesPlace "Club" "motto" .string sending ∧
        ¬ MakesRecord "Club" "motto" .string sending) ∧
      ∀ sending ∈ add.log unknown, ¬ MakesRecord "Club" "motto" .string sending := by
  intro late unknown add
  have hlate : add.log late = [(.table (.addColumn "Club" "motto" .text), .failed clubMissing),
    (.table (.createTable "Club" (columns (classWithField "Club" "motto" .string))),
      .failed clubThere),
    (.metadata (.record (classWithField "Club" "motto" .string)), .affected 0)] := rfl
  have hunknown : add.log unknown = [(.table (.addColumn "Club" "motto" .text), .affected 1),
    (.metadata (.document "Club"), .rows []),
    (.metadata (.recordField "Club" "motto" .string), .affected 0)] := rfl
  refine ⟨rfl, rfl, ?_, ?_⟩
  · rw [hlate]
    simp [MakesPlace, MakesRecord, Outcome.succeededOr, Outcome.succeeded, clubMissing,
      Error.isState, Error.state?]
  · rw [hunknown]
    simp [MakesRecord]

end Classes

end ObjectStore
