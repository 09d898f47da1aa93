import ObjectStore.Objects.Options
import ObjectStore.Objects.Read
import ObjectStore.Query.Compile
import ObjectStore.Request.Prepare

/-!
# Reading requests

Finding, getting, counting, listing and aggregating objects on behalf of a caller. What goes wrong
in the engine is told to the caller as an internal failure only.
-/

namespace ObjectStore.Request

/-!
## Sort keys of requests

A sort key must look like a field. Keys of fields that the class lacks are passed over, and the rank
of a full-text search is a key of its own.
-/

/-- Whether a name starts with a letter and goes on with letters, digits and underscores. -/
def isSortName (name : String) : Bool :=
  match name.toList with
  | [] => false
  | c :: rest => c.isAlpha && rest.all fun c => c.isAlphanum || c = '_'

/-- The field that a sort key stands for. -/
def sortField (field : String) : String :=
  match field with
  | "_created_at" => createdAtField
  | "_updated_at" => updatedAtField
  | field => field

/-- A sort key as the class can take it, if it can. -/
def sortKey (s : Schema) (key : SortKey) : Result (Option SortKey) :=
  let key := { key with field := sortField key.field }
  if key.field = "$score" then .ok (some key)
  else
    let root := Compiler.root key.field
    if !isSortName root then .error (.invalidKeyName (.sortField key.field))
    else .ok (if s.hasField root then some key else none)

/-- The sort keys that a class can take. -/
def sortKeys (s : Schema) (keys : List SortKey) : Result (List SortKey) := do
  pure ((← keys.mapM (sortKey s)).filterMap id)

/-! ## Requests -/

/-- A failure of the engine as an internal one. -/
def concealStorage : Error → Error
  | .storage message _ => .internal (.engine message)
  | e => e

/-- An object as a caller may see it. -/
def present (hidden : Option (List String)) (object : Object) : Object :=
  Access.redact (Access.toWire object) (hidden.getD [])

/-- What a search answers that can see nothing. -/
def findNothing (op : Operation) : Result (List Object) :=
  if op = .get then .error (.objectNotFound .noObject) else .ok []

/-- Finds objects of a class. -/
def find (store : Store) (className : String) (query : Object) (options : FindOptions)
    (caller : Caller) : Work (List Object) := do
  let op := options.operation.getD .find
  match ← prepareRead store className query op caller with
  | none => Work.ofResult (findNothing op)
  | some read =>
    let sort ← Work.ofResult (sortKeys read.schema options.sort)
    let objects ← (Objects.find store.settings className read.schema read.query
      { options with sort }).rewordFailure concealStorage
    pure (objects.map (present read.hidden))

/-- Gets the object with an id. -/
def get (store : Store) (className id : String) (caller : Caller) : Work Object := do
  let options : FindOptions := { limit := some 1, operation := some .get }
  match ← find store className [(objectIdField, .str id)] options caller with
  | object :: _ => pure object
  | [] => throw (.objectNotFound .noObject)

/-- Counts objects of a class. -/
def count (store : Store) (className : String) (query : Object) (caller : Caller) : Work Nat := do
  match ← prepareRead store className query .count caller with
  | none => pure 0
  | some read =>
    (Objects.count store.settings className read.schema read.query true).rewordFailure
      concealStorage

/-- The operation that listing the values of a field counts as: getting an object if the query
names one by its id, and finding objects otherwise. -/
def distinctOperation (query : Object) : Operation :=
  match query with
  | [(key, .str _)] => if key = objectIdField then .get else .find
  | _ => .find

/-- The distinct values of a field among objects of a class. -/
def distinct (store : Store) (className : String) (query : Object) (field : String)
    (caller : Caller) : Work (List Json) := do
  match ← prepareRead store className query (distinctOperation query) caller with
  | none => pure []
  | some read =>
    (Objects.distinct className read.schema read.query field).rewordFailure concealStorage

/-- Runs a pipeline over the objects of a class, which only masters may. -/
def aggregate (className : String) (pipeline : List Json) (caller : Caller) :
    Work (List Object) := do
  if !caller.isMaster then throw (.operationForbidden .masterRequired)
  match ← Classes.loaded? className with
  | none => pure []
  | some schema =>
    let objects ← (Objects.aggregate className schema pipeline).rewordFailure concealStorage
    pure (objects.map Access.toWire)

end ObjectStore.Request
