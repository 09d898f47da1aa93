import ObjectStore.Classes.Document
import ObjectStore.Schema.Basic

/-!
# Edges

Reading and writing the edges of relations. A join table that is missing has no edges, and is
created when the first one is written.
-/

namespace ObjectStore

/-!
## Changes to relations

The operators of an update that add edges to a relation or remove them, also in a batch. They are
taken out of the update, since relations have no column to assign.
-/

/-- Whether edges come or go. -/
inductive RelationOperator where
  | add
  | remove
  deriving Repr, DecidableEq

/-- Edges of one relation field that come or go. -/
structure RelationUpdate where
  field : String
  operator : RelationOperator
  relatedIds : List String
  deriving Repr, DecidableEq

/-- The id of an object that a relation is to lead to: a bare id, a pointer, or an object with its
id. -/
def relatedId? (value : Json) : Option String :=
  match value with
  | .str id => some id
  | _ =>
    match Pointer.ofJson? value with
    | some pointer => some pointer.objectId
    | none => (value.get? objectIdField).bind Json.str?

namespace RelationUpdate

/-- The change that a relation operator makes. -/
def ofOperator (field : String) (operator : RelationOperator) (value : Json) : RelationUpdate :=
  ⟨field, operator, (((value.get? "objects").bind Json.arr?).getD []).filterMap relatedId?⟩

mutual

/-- The changes that a member of an update makes to a relation; none if it is no such operator. -/
def ofJson (field : String) : Json → List RelationUpdate
  | .obj members =>
    match (Json.obj members).opTag? with
    | some "AddRelation" => [ofOperator field .add (.obj members)]
    | some "RemoveRelation" => [ofOperator field .remove (.obj members)]
    | some "Batch" => ofBatch field members
    | _ => []
  | _ => []

/-- The changes that the operators of a batch make. -/
def ofBatch (field : String) : List (String × Json) → List RelationUpdate
  | [] => []
  | (key, value) :: rest => if key = "ops" then ofOperators field value else ofBatch field rest

/-- The changes that a list of operators makes. -/
def ofOperators (field : String) : Json → List RelationUpdate
  | .arr operators => ofItems field operators
  | _ => []

/-- The changes that operators make one after another. -/
def ofItems (field : String) : List Json → List RelationUpdate
  | [] => []
  | operator :: rest => ofJson field operator ++ ofItems field rest

end

/-- The changes that an update makes to relations, in the order of its keys. -/
def collect (update : Object) : List RelationUpdate :=
  update.flatMap fun (key, value) => ofJson key value

/-- An update without its changes to relations. -/
def remaining (update : Object) : Object :=
  update.filter fun (key, value) => (ofJson key value).isEmpty

end RelationUpdate

end ObjectStore

/-! ## Edges of an object -/

namespace ObjectStore.JoinTables

/-- Creates a missing join table and sends the statement that missed it once more. -/
def createAndRetry (table : JoinTable) (statement : Statement) : Work Unit := do
  Work.notify (.joinTableMissing table.name)
  Classes.createJoinTable table
  let _ ← Work.execute statement

/-- Adds an edge; one that exists is left alone. -/
def link (tables : JoinTables) (className field owningId relatedId : String) : Work Unit := do
  let table ← Work.ofResult (tables.require className field)
  let statement := Statement.relation (.link table owningId relatedId)
  Work.recover (do let _ ← Work.execute statement) fun e =>
    if e.isUndefinedTable then createAndRetry table statement else throw e

/-- Removes an edge, if there is one. -/
def unlink (tables : JoinTables) (className field owningId relatedId : String) : Work Unit := do
  let table ← Work.ofResult (tables.require className field)
  Work.orIfUndefined (do let _ ← Work.execute (.relation (.unlink table owningId relatedId))) ()

/-- The ids in a column of the rows of a join table. -/
def idsOf (column : String) (statement : RelationStatement) : Work (List String) := do
  let rows ← (Work.query (.relation statement)).orIfUndefined []
  Work.ofResult (rows.mapM (·.text column))

/-- The ids of the objects that an object leads to. -/
def relatedIds (tables : JoinTables) (className field owningId : String) : Work (List String) :=
  match tables.find? className field with
  | none => pure []
  | some table => idsOf relatedColumn (.related table owningId)

/-- The ids of the objects that lead to one of some objects. -/
def owningIds (tables : JoinTables) (className field : String) (relatedIds : List String) :
    Work (List String) :=
  match tables.find? className field with
  | none => pure []
  | some table =>
    if relatedIds.isEmpty then pure [] else idsOf owningColumn (.owners table relatedIds)

/-- Adds or removes an edge. -/
def change (tables : JoinTables) (className owningId field relatedId : String) :
    RelationOperator → Work Unit
  | .add => tables.link className field owningId relatedId
  | .remove => tables.unlink className field owningId relatedId

/-- Applies changes to the relations of one object. All of them are started at once, and the first
failure is that of the whole. Here each statement is answered before the next is sent, so that the
changes are done in their order and none is sent after a failure; where answers come in later,
others may have been sent by then, and be done. -/
def applyUpdates (tables : JoinTables) (className owningId : String)
    (updates : List RelationUpdate) : Work Unit :=
  Work.recover
    (updates.forM fun update => update.relatedIds.forM fun id =>
      tables.change className owningId update.field id update.operator)
    fun e => do
      Work.notify (.relationUpdateFailed className owningId e.message)
      throw e

end ObjectStore.JoinTables
