import ObjectStore.Objects.Write
import ObjectStore.Request.Prepare
import ObjectStore.Update.Operators

/-!
# Writing requests

Creating, updating and destroying objects on behalf of a caller. The edges of relations are written
after the object itself, outside of its statement.
-/

namespace ObjectStore.Request

/-!
## Answers to writes

A client knows the values that it wrote; what it cannot know is what its operators made of the
values that were there. An answer to a write holds just these.
-/

/-- Whether a member of an update is an operator whose result a client cannot know. -/
def isAnswered (value : Json) : Bool :=
  value.opTag?.any fun tag => tag = "Increment" || (ListOperator.ofTag? tag).isSome

/-- An answer with what a row holds at a path; objects on the way are made as they are needed. -/
def copyPath (answer row : Object) : List String → Object
  | [] => answer
  | [key] =>
    match row.get? key with
    | some value => answer.insert key value
    | none => answer
  | key :: next :: rest =>
    match row.get? key, answer.get? key with
    | some (.obj inner), none => answer.insert key (.obj (copyPath [] inner (next :: rest)))
    | some (.obj inner), some (.obj slot) =>
      answer.insert key (.obj (copyPath slot inner (next :: rest)))
    | _, _ => answer

/-- What the operators of an update made of a row. -/
def operatorResults (update row : Object) : Object :=
  (update.filter fun (_, value) => isAnswered value).foldl
    (fun answer (key, _) => copyPath answer row (Text.split '.' key)) []

/-! ## Requests -/

/-- The id that an object or a row carries, if any. -/
def idOf (object : Object) : Option String := (object.get? objectIdField).bind Json.str?

/-- Applies changes to the relations of an object, if there are any and the object has an id. -/
def applyRelations (className : String) (owningId : Option String)
    (updates : List RelationUpdate) : Work Unit :=
  match owningId with
  | none => pure ()
  | some id =>
    if updates.isEmpty then pure ()
    else do (← joinTables).applyUpdates className id updates

/-- The current time as a tagged date. -/
def currentDate : Work Json := do pure (.ofDate (← Work.ofResult (← Work.now).toIso))

/-! ## Creating -/

/-- A new object in its stored form, with its changes to relations still in it. -/
def storedForm (object : Object) : Result Object := do
  let object := Access.withOpenColumns (← Access.toColumns object)
  Update.validateNestedKeys object
  pure object

/-- An object with an id, if it has none. -/
def withId (object : Object) : Work Object :=
  if object.contains objectIdField then pure object
  else do pure (object.insert objectIdField (.str (← Work.freshId)))

/-- An object with its timestamps, as far as its class has them and it has none. -/
def withTimestamps (schema : Schema) (object : Object) : Work Object := do
  let date ← currentDate
  pure (([createdAtField, updatedAtField].filter schema.hasField).foldl
    (fun object field => Access.withDefault object field date) object)

/-- A date as its bare text; other values as they are. -/
def bareDate (value : Json) : Json := (value.date?.map Json.str).getD value

/-- What a caller is told of a new object besides what its operators yielded. -/
def identity (created : Object) : Object :=
  [objectIdField, createdAtField].foldl (fun answer key =>
    match created.get? key with
    | some value => Dict.insert answer key (bareDate value)
    | none => answer) []

/-- Creates an object. -/
def create (store : Store) (className : String) (submitted : Object) (caller : Caller) :
    Work Object := do
  let stored ← Work.ofResult (storedForm submitted)
  let updates := RelationUpdate.collect stored
  authorize className caller .create
  let schema ← Classes.require store.source className
  let object ← withTimestamps schema (← withId (RelationUpdate.remaining stored))
  let created ← Objects.insert className schema object
  applyRelations className (idOf created) updates
  pure (Dict.merge (identity created) (operatorResults submitted created))

/-! ## Updating -/

/-- The class to update objects of; one that is missing is created only to create an object. -/
def classToUpdate (store : Store) (className : String) (upsert : Bool) : Work Schema := do
  match ← Classes.loaded? className with
  | some schema => pure schema
  | none =>
    if upsert then Classes.require store.source className else throw (.objectNotFound .noObject)

/-- An update in its stored form. -/
def storedUpdate (update : Object) : Result Object := do
  Update.validateNestedKeys update
  Access.toColumns update

/-- An update that also sets the time of the update, if the class has it. -/
def withUpdateTime (schema : Schema) (update : Object) : Work Object :=
  if schema.hasField updatedAtField then do
    pure (update.insert updatedAtField (← currentDate))
  else pure update

/-- Writes an update, and gives back the rows as they are then. -/
def writeUpdate (className : String) (schema : Schema) (query update : Object)
    (options : UpdateOptions) : Work (List Object) := do
  if options.many then Objects.updateAll className schema query update
  else if options.upsert then
    pure (← Objects.upsert className schema query update).toList
  else
    match ← Objects.updateOne className schema query update with
    | some row => pure [row]
    | none => throw (.objectNotFound .noObject)

/-- Updates objects of a class. -/
def update (store : Store) (className : String) (query submitted : Object)
    (options : UpdateOptions) (caller : Caller) : Work Object := do
  authorize className caller .update
  let updates := RelationUpdate.collect submitted
  let schema ← classToUpdate store className options.upsert
  let query ← Work.ofResult (prepareWrite schema .update caller query)
  let stored ← Work.ofResult (storedUpdate (RelationUpdate.remaining submitted))
  let rows ← writeUpdate className schema query (← withUpdateTime schema stored) options
  rows.forM fun row => applyRelations className (idOf row) updates
  pure ((rows.head?.map (operatorResults submitted)).getD [])

/-! ## Destroying -/

/-- Destroys objects of a class. -/
def destroy (className : String) (query : Object) (caller : Caller) : Work Unit := do
  authorize className caller .delete
  let schema := (← Classes.loaded? className).getD (.ofClass className)
  let query ← Work.ofResult (prepareWrite schema .delete caller query)
  let _ ← Objects.delete className schema query

end ObjectStore.Request
