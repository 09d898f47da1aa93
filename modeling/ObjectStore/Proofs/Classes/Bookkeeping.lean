import ObjectStore.Classes.Delete
import ObjectStore.Classes.Loaded
import ObjectStore.Proofs.Engine.Sending
import ObjectStore.Relation.Edges

/-!
# Statements around those on rows

An operation on the rows of a class also looks up and writes edges, and may have to create the
class. All of this is bookkeeping: statements on join tables, on definitions and on the metadata
table, none of which reads or changes the rows of a class. An estimate of the number of rows is no
bookkeeping, as its answer depends on rows that the caller may not see.
-/

namespace ObjectStore

/-- Whether a statement neither touches the rows of a class nor tells anything of them. -/
def Statement.IsBookkeeping : Statement → Prop
  | .relation _ | .table _ => True
  | .metadata (.rowEstimate _) => False
  | .metadata _ => True
  | .rows _ | .insert .. | .aggregate .. => False

/-- Whether a statement looks up edges in a join table. -/
def Statement.IsLookup : Statement → Prop
  | .relation (.owners ..) | .relation (.related ..) => True
  | _ => False

/-- Looking up edges is bookkeeping. -/
theorem Statement.IsLookup.isBookkeeping {statement : Statement} (h : statement.IsLookup) :
    statement.IsBookkeeping := by
  cases statement with
  | relation => trivial
  | rows | insert | aggregate | metadata | table => exact h.elim

/-- A statement creates the table of a class with the fields of every class, or records the class
itself. -/
def Statement.Creates (className : String) (statement : Statement) : Prop :=
  statement = .table (.createTable className (Classes.columns (.ofClass className)))
    ∨ statement = .metadata (.record (.ofClass className))

/-- Creating a class is bookkeeping. -/
theorem Statement.Creates.isBookkeeping {className : String} {statement : Statement}
    (h : statement.Creates className) : statement.IsBookkeeping := by
  rcases h with rfl | rfl
  · trivial
  · trivial

open Statement Work

namespace Classes

/-! ## Creating a class -/

section Create

variable {P : Statement → Prop} {schema : Schema}

/-- Creating a join table takes one statement. -/
theorem sends_createJoinTable {table : JoinTable} (h : P (.table (.createJoinTable table))) :
    Sends P (createJoinTable table) :=
  sends_bind (sends_executeTolerant h) fun _ => sends_pure _

variable (htable : P (.table (.createTable schema.className (columns schema))))
  (hjoins : ∀ table ∈ schema.joinTables, P (.table (.createJoinTable table)))
include htable hjoins

/-- Creating the tables of a class takes a statement for its own table and one for each join table.
-/
theorem sends_createTables : Sends P (createTables schema) := by
  have hjoin : Sends P (schema.joinTables.forM createJoinTable) :=
    sends_forM fun table hmem => sends_createJoinTable (hjoins table hmem)
  refine sends_bind (sends_executeTolerant htable) ?_
  intro created
  -- the join tables are created whether or not the table of the class was there before
  split
  · exact sends_bind (sends_notify _) fun _ => hjoin
  · exact hjoin

/-- Creating a class takes statements that define tables, and the one that records the class. -/
theorem ensures_create (hrecord : P (.metadata (.record schema))) (s : Session) :
    Ensures P s (create schema) fun created _ => created = schema := by
  have hbody : Sends P (createAndRecord schema) :=
    sends_bind (sends_createTables htable hjoins) fun _ =>
      sends_bind (sends_execute hrecord) fun _ => sends_pure _
  refine ensures_bind (sends_transaction hbody s) ?_
  intro _ s₁ _ _
  exact ensures_bind (sends_notify _ s₁) fun _ _ _ _ => ensures_pure rfl

end Create

/-! ## Deleting a class -/

/-- Dropping a table is bookkeeping. -/
theorem sends_dropTable (table : String) : Sends IsBookkeeping (dropTable table) :=
  sends_bind (sends_execute trivial) fun _ => sends_pure _

/-- Deleting a class drops its table and forgets its record. -/
theorem sends_delete (className : String) : Sends IsBookkeeping (delete className) := by
  have hforget : Sends IsBookkeeping (changeMetadata (.forget className)) :=
    sends_bind (sends_execute trivial) fun _ => sends_pure _
  have hdrop : Sends IsBookkeeping (do dropTable className; changeMetadata (.forget className)) :=
    sends_bind (sends_dropTable className) fun _ => hforget
  exact sends_bind (sends_transaction hdrop) fun _ => sends_notify _

/-- Dropping the join tables of a class is bookkeeping. -/
theorem sends_dropJoinTables (schema : Schema) : Sends IsBookkeeping (dropJoinTables schema) :=
  sends_forM fun table _ => sends_dropTable table.name

/-! ## Loaded classes -/

/-- Loading the recorded classes anew reads the metadata table only. -/
theorem sends_reload (source : ClassSource) : Sends IsBookkeeping (reload source) := by
  cases source with
  | given => exact sends_pure _
  | recorded =>
    have hall : Sends IsBookkeeping allRecorded :=
      sends_bind (sends_orIfUndefined (sends_query trivial)) fun _ => sends_ofResult _
    exact sends_bind hall fun _ => sends_changeClasses _

/-- Looking a class up among the loaded ones sends nothing and changes nothing. -/
theorem ensures_loaded? {P : Statement → Prop} (className : String) (s : Session) :
    Ensures P s (loaded? className) fun schema s' =>
      schema = s.classes.get? className ∧ s' = s := by
  refine ensures_bind ensures_classes ?_
  intro loaded s' _ h
  obtain ⟨rfl, rfl⟩ := h
  exact ensures_pure ⟨rfl, rfl⟩

/-- Looking a loaded class up sends nothing. -/
theorem sends_loaded? {P : Statement → Prop} (className : String) : Sends P (loaded? className) :=
  fun s => (ensures_loaded? className s).mono fun _ _ _ _ => trivial

/-- A class that is required is the loaded one, or else one with the fields of every class, which is
created. -/
theorem ensures_require {P : Statement → Prop} {className : String} (source : ClassSource)
    (s : Session) (hcreates : s.classes.get? className = none →
      ∀ statement, statement.Creates className → P statement) :
    Ensures P s (require source className) fun schema _ =>
      schema = (s.classes.get? className).getD (.ofClass className) := by
  refine ensures_bind (ensures_loaded? className s) ?_
  intro schema s' _ h
  obtain ⟨rfl, rfl⟩ := h
  cases hget : s'.classes.get? className with
  | some schema => exact ensures_pure rfl
  | none =>
    cases source with
    | given => exact ensures_throw
    | recorded =>
      -- the new schema is known before the tables are: creating them answers with what it was given
      -- the fields of every class are no relations, so there are no join tables to create
      have hjoins : ∀ table ∈ (Schema.ofClass className).joinTables,
          P (.table (.createJoinTable table)) := fun _ h => nomatch h
      have hcreate := ensures_create (hcreates hget _ (Or.inl rfl)) hjoins
        (hcreates hget _ (Or.inr rfl)) s'
      refine ensures_bind hcreate ?_
      intro schema s₁ _ hschema
      refine ensures_bind (sends_notify _ s₁) ?_
      intro _ s₂ _ _
      exact ensures_bind (sends_changeClasses _ s₂) fun _ _ _ _ => ensures_pure hschema

end Classes

namespace JoinTables

variable {tables : JoinTables}

/-! ## Edges -/

/-- The ids in a column of a join table are read by a single lookup. -/
theorem sends_idsOf (column : String) {statement : RelationStatement}
    (h : Statement.IsLookup (.relation statement)) : Sends IsLookup (idsOf column statement) :=
  sends_bind (sends_orIfUndefined (sends_query h)) fun _ => sends_ofResult _

/-- The objects that an object is related to are looked up, if the class has the join table. -/
theorem sends_relatedIds (className field owningId : String) :
    Sends IsLookup (tables.relatedIds className field owningId) := by
  unfold relatedIds
  split
  · exact sends_pure _
  · exact sends_idsOf _ trivial

/-- The owners of objects are looked up, if the class has the join table and there are objects. -/
theorem sends_owningIds (className field : String) (relatedIds : List String) :
    Sends IsLookup (tables.owningIds className field relatedIds) := by
  unfold owningIds
  split
  · exact sends_pure _
  · split
    · exact sends_pure _
    · exact sends_idsOf _ trivial

/-- Writing an edge is bookkeeping, also where its join table has to be created first. -/
theorem sends_link (className field owningId relatedId : String) :
    Sends IsBookkeeping (tables.link className field owningId relatedId) := by
  refine sends_bind (sends_ofResult _) ?_
  intro table
  refine sends_recover (sends_bind (sends_execute trivial) fun _ => sends_pure _) ?_
  intro e
  -- a missing join table is created and the edge written again; any other failure stays one
  split
  · refine sends_bind (sends_notify _) fun _ => ?_
    refine sends_bind (Classes.sends_createJoinTable trivial) fun _ => ?_
    exact sends_bind (sends_execute trivial) fun _ => sends_pure _
  · exact sends_throw _

/-- Removing an edge is bookkeeping. -/
theorem sends_unlink (className field owningId relatedId : String) :
    Sends IsBookkeeping (tables.unlink className field owningId relatedId) := by
  refine sends_bind (sends_ofResult _) ?_
  intro table
  refine sends_orIfUndefined ?_
  exact sends_bind (sends_execute trivial) fun _ => sends_pure _

/-- Writing and removing the edges of an object is bookkeeping, whether or not all of it succeeds.
-/
theorem sends_applyUpdates (className owningId : String) (updates : List RelationUpdate) :
    Sends IsBookkeeping (tables.applyUpdates className owningId updates) := by
  -- one edge after another, update by update
  have hedges : ∀ update ∈ updates, Sends IsBookkeeping (update.relatedIds.forM fun id =>
      tables.change className owningId update.field id update.operator) := by
    intro update _
    refine sends_forM ?_
    intro id _
    unfold change
    split
    · exact sends_link _ _ _ _
    · exact sends_unlink _ _ _ _
  refine sends_recover (sends_forM hedges) ?_
  intro e
  exact sends_bind (sends_notify _) fun _ => sends_throw _

end JoinTables

end ObjectStore
