import ObjectStore.Classes.Document
import ObjectStore.Classes.Delete
import ObjectStore.Classes.Index
import ObjectStore.Proofs.Engine.Transactions

/-!
# Changes of classes are transactions

Every change of the classes goes through a list of fields, relations or indexes, sends one statement
or more for each, and may fail at any of them. `Change.transacts` says what is left of it in the
journal in all cases: one transaction that holds all definitions and all changes of the metadata
table, kept if and only if the change succeeds, with every savepoint in it closed once.

The proof gives each step a lemma that it keeps to what may happen inside a transaction, so the
loops are one rule and a new step needs one more lemma.
-/

namespace ObjectStore.Classes

open Work
open Event (Body grammar_body grammar_reads)

/-- A change of the classes that runs in a transaction of its own. -/
inductive Change where
  | create (schema : Schema)
  | createTable (schema : Schema)
  | addField (className field : String) (type : FieldType)
  | upgrade (schema : Schema)
  | delete (className : String)
  | deleteAll
  | deleteFields (schema : Schema) (names : List String)
  | createIndexes (className : String) (specs : List IndexSpec)
  | dropIndexes (names : List String)
  | changeIndexes (className : String) (submitted : Object) (existing : Dict (Dict Json))
    (fields : Dict FieldType)

/-- What is done for a change of the classes. -/
def Change.run : Change → Work Unit
  | .create schema => do let _ ← Classes.create schema
  | .createTable schema => Classes.createTable schema
  | .addField className field type => Classes.addField className field type
  | .upgrade schema => Classes.upgrade schema
  | .delete className => Classes.delete className
  | .deleteAll => Classes.deleteAll
  | .deleteFields schema names => do let _ ← Classes.deleteFields schema names
  | .createIndexes className specs => Classes.createIndexes className specs
  | .dropIndexes names => Classes.dropIndexes names
  | .changeIndexes className submitted existing fields => do
    let _ ← Classes.changeIndexes className submitted existing fields

/-! ## Steps inside a transaction -/

/-- A change of the metadata table is one statement of the transaction. -/
theorem keeps_changeMetadata (statement : MetadataStatement) :
    Keeps Body (changeMetadata statement) :=
  keeps_bind grammar_body (nests_execute _) fun _ => keeps_pure grammar_body _

/-- Creating a join table stays inside the transaction, with a savepoint for a race that is lost. -/
theorem keeps_createJoinTable (table : JoinTable) : Keeps Body (createJoinTable table) :=
  keeps_bind grammar_body (nests_executeTolerant _ _) fun _ => keeps_pure grammar_body _

/-- Creating the tables of a class stays inside the transaction, however many join tables it has. -/
theorem keeps_createTables (schema : Schema) : Keeps Body (createTables schema) := by
  have hjoin : Keeps Body (schema.joinTables.forM createJoinTable) :=
    keeps_forM grammar_body keeps_createJoinTable
  refine keeps_bind grammar_body (nests_executeTolerant _ _) ?_
  intro created
  split
  · exact keeps_bind grammar_body (keeps_notify grammar_body _) fun _ => hjoin
  · exact hjoin

/-- Creating the tables of a class and recording it stays inside the transaction. -/
theorem keeps_createAndRecord (schema : Schema) : Keeps Body (createAndRecord schema) :=
  keeps_bind grammar_body (keeps_createTables schema) fun _ => keeps_changeMetadata _

/-- Adding a column stays inside the transaction. -/
theorem keeps_addColumn (className field : String) (type : FieldType) (column : ColumnType) :
    Keeps Body (addColumn className field type column) := by
  refine keeps_recover grammar_body ?_ fun e => ?_
  · exact keeps_bind grammar_body (nests_executeTolerant _ _) fun _ => keeps_pure grammar_body _
  -- a missing table is made up for by creating the class; any other failure stays one
  · split
    · exact keeps_bind grammar_body (keeps_notify grammar_body _) fun _ =>
        keeps_bind grammar_body (keeps_createAndRecord _) fun _ => keeps_pure grammar_body _
    · exact keeps_throw grammar_body _

/-- A new field gets its join table or its column inside the transaction. -/
theorem keeps_addStorage (className field : String) (type : FieldType) :
    Keeps Body (addStorage className field type) := by
  unfold addStorage
  split
  · exact keeps_bind grammar_body (keeps_createJoinTable _) fun _ => keeps_pure grammar_body _
  · exact keeps_addColumn _ _ _ _

/-- Asking whether a field is recorded stays inside the transaction. -/
theorem keeps_recordsField (className field : String) :
    Keeps Body (recordsField className field) := by
  have hrows : Keeps Body ((Work.query (.metadata (.document className))).orIfUndefined []) :=
    keeps_orIfUndefined grammar_body (nests_query _)
  have hdocument : Keeps Body (document? className) :=
    keeps_bind grammar_body hrows fun _ => keeps_pure grammar_body _
  exact keeps_bind grammar_body hdocument fun _ => keeps_pure grammar_body _

/-- Asking for the columns of a table stays inside the transaction. -/
theorem keeps_tableColumns (className : String) : Keeps Body (tableColumns className) :=
  keeps_bind grammar_body (nests_query _) fun _ => keeps_ofResult grammar_body _

/-- Whatever an upgrade finds of a field, what it adds is added inside the transaction. -/
theorem keeps_upgradeField (className : String) (existing : List String)
    (field : String × FieldType) : Keeps Body (upgradeField className existing field) := by
  obtain ⟨name, type⟩ := field
  simp only [upgradeField]
  split
  -- a relation needs its join table, whether or not it is there
  · exact keeps_createJoinTable _
  split
  · exact keeps_pure grammar_body _
  -- a column that is missing is added, and its field recorded where it is not yet
  refine keeps_bind grammar_body (keeps_addStorage _ _ _) ?_
  intro created
  split
  · exact keeps_pure grammar_body _
  refine keeps_bind grammar_body (keeps_recordsField _ _) ?_
  intro recorded
  split
  · exact keeps_pure grammar_body _
  · exact keeps_changeMetadata _

/-- Dropping a table is one statement of the transaction. -/
theorem keeps_dropTable (table : String) : Keeps Body (dropTable table) :=
  keeps_bind grammar_body (nests_execute _) fun _ => keeps_pure grammar_body _

/-- The tables of a class are dropped inside the transaction. -/
theorem keeps_dropTables (schema : Schema) : Keeps Body (dropTables schema) :=
  keeps_bind grammar_body (keeps_dropTable _) fun _ =>
    keeps_forM grammar_body fun table => keeps_dropTable table.name

/-- Dropping columns stays inside the transaction. -/
theorem keeps_dropColumns (className : String) (columns : List String) :
    Keeps Body (dropColumns className columns) :=
  keeps_bind grammar_body (nests_executeTolerant _ _) fun _ => keeps_pure grammar_body _

/-- Creating an index stays inside the transaction, with a savepoint where it may be there already.
-/
theorem keeps_createIndex (className : String) (spec : IndexSpec) :
    Keeps Body (createIndex className spec) :=
  keeps_bind grammar_body (nests_executeTolerant _ _) fun _ => keeps_pure grammar_body _

/-- Dropping an index is one statement of the transaction. -/
theorem keeps_dropIndex (name : String) : Keeps Body (dropIndex name) :=
  keeps_bind grammar_body (nests_execute _) fun _ => keeps_pure grammar_body _

/-! ## Changes as a whole -/

/-- A class is created and recorded in one transaction, and announced after it. -/
theorem transacts_create (schema : Schema) : Transacts (create schema) := by
  have hbody : Transacts (transaction (createAndRecord schema)) :=
    transacts_transaction (keeps_createAndRecord schema)
  -- what comes after the transaction writes no event
  exact transacts_bind_of_isQuiet hbody fun _ =>
    isQuiet_bind (isQuiet_notify _) fun _ => isQuiet_pure _

/-- A field is added and recorded in one transaction, which a recorded field makes fail. -/
theorem transacts_addField (className field : String) (type : FieldType) :
    Transacts (addField className field type) := by
  refine transacts_transaction (keeps_bind grammar_body (keeps_addStorage _ _ _) ?_)
  intro created
  split
  · exact keeps_pure grammar_body _
  refine keeps_bind grammar_body (keeps_recordsField _ _) ?_
  intro recorded
  split
  · exact keeps_bind grammar_body (keeps_throw grammar_body _) fun _ => keeps_changeMetadata _
  · exact keeps_changeMetadata _

/-- All that a class is missing is added in one transaction. -/
theorem transacts_upgrade (schema : Schema) : Transacts (upgrade schema) := by
  refine transacts_transaction (keeps_bind grammar_body (keeps_createTables schema) ?_)
  intro _
  refine keeps_bind grammar_body (keeps_tableColumns _) ?_
  -- the loop over the fields looks each one up in the columns that were found
  intro existing
  exact keeps_forM grammar_body (keeps_upgradeField _ existing)

/-- A class is dropped and forgotten in one transaction, and its deletion announced after it. -/
theorem transacts_delete (className : String) : Transacts (delete className) := by
  refine transacts_bind_of_isQuiet (transacts_transaction ?_) fun _ => isQuiet_notify _
  exact keeps_bind grammar_body (keeps_dropTable _) fun _ => keeps_changeMetadata _

/-- The recorded classes are read before the transaction that drops them. -/
theorem transacts_deleteAll : Transacts deleteAll := by
  have hread : Keeps Event.Reads allRecorded :=
    keeps_bind grammar_reads (keeps_orIfUndefined grammar_reads (reads_query nofun))
      fun _ => keeps_ofResult grammar_reads _
  have hforget : Keeps Body forgetAll := keeps_orIfUndefined grammar_body (keeps_changeMetadata _)
  refine transacts_bind_of_reads hread ?_
  intro schemas
  have hdrop : Keeps Body (schemas.forM dropTables) := keeps_forM grammar_body keeps_dropTables
  refine transacts_bind_of_isQuiet (transacts_transaction ?_) fun _ => isQuiet_notify _
  exact keeps_bind grammar_body hdrop fun _ => hforget

/-- Fields are forgotten, and their columns and join tables dropped, in one transaction. -/
theorem transacts_deleteFields (schema : Schema) (names : List String) :
    Transacts (deleteFields schema names) := by
  refine transacts_bind_of_isQuiet (transacts_transaction ?_) fun _ => isQuiet_pure _
  have hrelations : ∀ relations : List (String × FieldType), Keeps Body
      (relations.forM fun field => dropTable (JoinTable.mk schema.className field.1).name) :=
    fun _ => keeps_forM grammar_body fun _ => keeps_dropTable _
  refine keeps_bind grammar_body (keeps_changeMetadata _) fun _ => ?_
  split
  · exact keeps_bind grammar_body (keeps_dropColumns _ _) fun _ => hrelations _
  · exact hrelations _

/-- Indexes are created in one transaction. -/
theorem transacts_createIndexes (className : String) (specs : List IndexSpec) :
    Transacts (createIndexes className specs) :=
  transacts_transaction (keeps_forM grammar_body (keeps_createIndex className))

/-- Indexes are dropped in one transaction. -/
theorem transacts_dropIndexes (names : List String) : Transacts (dropIndexes names) :=
  transacts_transaction (keeps_forM grammar_body keeps_dropIndex)

/-- Changes of indexes are checked before the transaction that makes them. -/
theorem transacts_changeIndexes (className : String) (submitted : Object)
    (existing : Dict (Dict Json)) (fields : Dict FieldType) :
    Transacts (changeIndexes className submitted existing fields) := by
  refine transacts_bind_of_reads (keeps_ofResult grammar_reads _) ?_
  intro changes
  have hcreate : Keeps Body (changes.created.forM (createIndex className)) :=
    keeps_forM grammar_body (keeps_createIndex className)
  have hdrop : Keeps Body (changes.deleted.forM dropIndex) :=
    keeps_forM grammar_body keeps_dropIndex
  refine transacts_bind_of_isQuiet (transacts_transaction ?_) fun _ => isQuiet_pure _
  refine keeps_bind grammar_body hcreate fun _ => ?_
  exact keeps_bind grammar_body hdrop fun _ => keeps_changeMetadata _

/-- Whatever the engine answers, a change of the classes opens one transaction, which is kept if and
only if the change succeeds and undone otherwise. Before it there are reads at most, and the change
may fail on them; nothing comes after it. In it every savepoint is closed once, by what became of
the statement that it holds. -/
theorem Change.transacts (change : Change) (s : Session) : ∃ events,
    (change.run.run s).2.journal = s.journal ++ events
      ∧ Journal.Transacted s.depth (change.run.run s).1.isOk events := by
  have hdiscard : ∀ {α : Type} {w : Work α}, Transacts w → Transacts (do let _ ← w) :=
    fun h => transacts_bind_of_isQuiet h fun _ => isQuiet_pure _
  -- one lemma for each change; what a change answers with writes no event
  cases change with
  | create schema => exact hdiscard (transacts_create schema) s
  | createTable schema => exact transacts_transaction (keeps_createTables schema) s
  | addField className field type => exact transacts_addField className field type s
  | upgrade schema => exact transacts_upgrade schema s
  | delete className => exact transacts_delete className s
  | deleteAll => exact transacts_deleteAll s
  | deleteFields schema names => exact hdiscard (transacts_deleteFields schema names) s
  | createIndexes className specs => exact transacts_createIndexes className specs s
  | dropIndexes names => exact transacts_dropIndexes names s
  | changeIndexes className submitted existing fields =>
    exact hdiscard (transacts_changeIndexes className submitted existing fields) s

end ObjectStore.Classes
