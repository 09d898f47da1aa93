import ObjectStore.Engine.Journal
import ObjectStore.Schema.Basic
import ObjectStore.Time.Timestamp

/-!
# Sessions

A session is the connection to an engine together with what the store remembers between operations:
the classes that are loaded, and the journal of what was sent. The engine is what it answers: a
queue of answers to the statements that return rows, and one of answers to all other statements.
Once a queue is used up, there are no rows, and one row is affected.

`Work` is what an operation does with a session. It may fail at any point; what it did up to then
stays in the session, except that a transaction undoes itself when its body fails.
-/

namespace ObjectStore.ObjectId

/-!
## Object ids

The id of a new object is ten letters and digits, one for each of ten random bytes.
-/

/-- The characters of ids. -/
def alphabet : List Char :=
  "ABCDEFGHIJKLMNOPQRSTUVWXYZabcdefghijklmnopqrstuvwxyz0123456789".toList

/-- The character that a random byte picks. -/
def ofByte (byte : UInt8) : Char := alphabet.getD (byte.toNat % 62) 'A'

/-- The id that ten random bytes give. -/
def ofBytes (bytes : Vector UInt8 10) : String := String.ofList (bytes.toList.map ofByte)

end ObjectStore.ObjectId

/-!
## Notices

What the store tells its operator besides its answers.
-/

namespace ObjectStore

/-- Something worth telling. -/
inductive Notice where
  | createdClass (className : String)
  | createdTable (className : String)
  | deletedClass (className : String)
  | deletedClasses (count : Nat)
  | droppedClass (className : String)
  | createdOnWrite (className : String)
  | raceIgnored (message : String)
  | tableMissing (className field : String)
  | joinTableMissing (table : String)
  | relationUpdateFailed (className owningId message : String)
  deriving Repr, DecidableEq

namespace Notice

/-- Whether a notice tells of something that should not have happened. -/
def isWarning : Notice → Bool
  | .raceIgnored _ | .tableMissing .. | .joinTableMissing _ | .relationUpdateFailed .. => true
  | _ => false

/-- The wording of a notice. -/
def text : Notice → String
  | .createdClass className => s!"created class {className}"
  | .createdTable className => s!"created table {className}"
  | .deletedClass className => s!"deleted class {className}"
  | .deletedClasses count => s!"deleted {count} classes"
  | .droppedClass className => s!"dropped class {className}"
  | .createdOnWrite className => s!"class {className} created on first write"
  | .raceIgnored message => s!"ignored concurrent schema change: {message}"
  | .tableMissing className field =>
    s!"table {className} missing while adding {field}, creating it"
  | .joinTableMissing table => s!"join table {table} missing, creating it"
  | .relationUpdateFailed className owningId message =>
    s!"relation update on {className} {owningId} failed: {message}"

/-- A notice as a line of a journal. -/
def line (n : Notice) : String := (if n.isWarning then "WARN " else "INFO ") ++ n.text

end Notice

/-! ## The session -/

/-- The state of a session. -/
structure Session where
  rowAnswers : List (Result (List Row))
  changeAnswers : List (Result Nat)
  now : Timestamp
  randomBytes : Nat → Vector UInt8 10
  idsDrawn : Nat := 0
  classes : Dict Schema := []
  depth : Nat := 0
  journal : Journal := []
  notices : List Notice := []

/-- Something to do in a session. -/
abbrev Work (α : Type) := ExceptT Error (StateM Session) α

namespace Session

/-- The session with one more entry in its journal. -/
def record (s : Session) (event : Event) : Session := { s with journal := s.journal ++ [event] }

/-- The answer to a statement that returns rows. -/
def query (statement : Statement) (s : Session) : Result (List Row) × Session :=
  let answer := s.rowAnswers.headD (.ok [])
  let outcome := match answer with
    | .ok rows => Outcome.rows rows
    | .error e => Outcome.failed e
  (answer, { s with rowAnswers := s.rowAnswers.tail }.record (.sent statement outcome))

/-- The answer to a statement that changes something: how many rows it affected. -/
def execute (statement : Statement) (s : Session) : Result Nat × Session :=
  let answer := s.changeAnswers.headD (.ok 1)
  let outcome := match answer with
    | .ok count => Outcome.affected count
    | .error e => Outcome.failed e
  (answer, { s with changeAnswers := s.changeAnswers.tail }.record (.sent statement outcome))

/-- The session inside a new transaction. -/
def enter (s : Session) : Session := { s with depth := s.depth + 1 }.record (.began s.depth)

/-- The session after a transaction that was entered at a depth. -/
def leave (depth : Nat) (event : Nat → Event) (s : Session) : Session :=
  { s with depth := depth }.record (event depth)

end Session

namespace Work

/-- Sends a statement that returns rows. -/
def query (statement : Statement) : Work (List Row) := ExceptT.mk (Session.query statement)

/-- Sends a statement that changes something. -/
def execute (statement : Statement) : Work Nat := ExceptT.mk (Session.execute statement)

/-- Does work in a transaction, which is kept if the work succeeds and undone if it fails. To open a
transaction or a savepoint, to keep it and to undo it are taken to succeed: a session answers the
statements that are sent in between. -/
def transaction {α : Type} (body : Work α) : Work α :=
  ExceptT.mk fun s =>
    match body.run s.enter with
    | (.ok value, after) => (.ok value, after.leave s.depth .kept)
    | (.error e, after) => (.error e, after.leave s.depth .undone)

/-- Does work, and other work in its place if it fails with some error. -/
def recover {α : Type} (body : Work α) (handle : Error → Work α) : Work α :=
  ExceptT.mk fun s =>
    match body.run s with
    | (.ok value, after) => (.ok value, after)
    | (.error e, after) => (handle e).run after

/-- Does work and rewords its failure. -/
def rewordFailure {α : Type} (reword : Error → Error) (body : Work α) : Work α :=
  body.recover fun e => throw (reword e)

/-- Work that does no more than give a result. -/
def ofResult {α : Type} : Result α → Work α
  | .ok value => pure value
  | .error e => throw e

/-- Tells something. -/
def notify (notice : Notice) : Work Unit :=
  modify fun s => { s with notices := s.notices ++ [notice] }

/-- The current time. -/
def now : Work Timestamp := do pure (← get).now

/-- A new object id. -/
def freshId : Work String :=
  modifyGet fun s =>
    (ObjectId.ofBytes (s.randomBytes s.idsDrawn), { s with idsDrawn := s.idsDrawn + 1 })

/-- The loaded classes. -/
def classes : Work (Dict Schema) := do pure (← get).classes

/-- Changes the loaded classes. -/
def changeClasses (f : Dict Schema → Dict Schema) : Work Unit :=
  modify fun s => { s with classes := f s.classes }

/-- The answer of a query, or another one if the table is missing. -/
def orIfUndefined {α : Type} (body : Work α) (otherwise : α) : Work α :=
  body.recover fun e => if e.isUndefinedTable then pure otherwise else throw e

/-- Sends a statement in a transaction of its own and passes over failures of some classes; tells
whether the statement was kept. The transaction around it can go on in either case. -/
def executeTolerant (statement : TableStatement) (tolerated : List SqlState) : Work Bool :=
  (do
    let _ ← (execute (.table statement)).transaction
    pure true).recover fun e =>
      if tolerated.any e.isState then do
        notify (.raceIgnored e.message)
        pure false
      else throw e

end Work

end ObjectStore
