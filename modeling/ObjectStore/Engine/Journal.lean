import ObjectStore.Error.Basic
import ObjectStore.Statement.Basic

/-!
# Rows and journals

What the engine gives, rows of cells, and all that it was sent, with what came of it.
-/

namespace ObjectStore

/-!
## Rows

What the engine returns: rows of named cells. A reader of a cell refuses a row that lacks the cell
or holds nothing in it; a reader whose name ends in `?` takes both for nothing.
-/

/-- A cell of a row; nothing is what a null holds. -/
inductive Cell where
  | text (value : Option String)
  | json (value : Option Json)
  | integer (value : Int64)
  | real (value : Option Float)

/-- A row: its cells by column. -/
abbrev Row := Dict Cell

namespace Row

/-- The refusal of a row whose column holds nothing. -/
def missing (column : String) : Error :=
  .storage ("Type Error: A null value was encountered while decoding \"" ++ column ++ "\"") none

/-- The value that is there, or else the refusal of the row. -/
def require {α : Type} (column : String) : Option α → Result α
  | some value => .ok value
  | none => .error (missing column)

/-- The JSON in a column, if any. -/
def json? (row : Row) (column : String) : Option Json :=
  match Dict.get? row column with
  | some (.json value) => value
  | _ => none

/-- The number in a column, if any. -/
def real? (row : Row) (column : String) : Option Float :=
  match Dict.get? row column with
  | some (.real value) => value
  | _ => none

/-- The text in a column. -/
def text (row : Row) (column : String) : Result String :=
  match Dict.get? row column with
  | some (.text value) => require column value
  | _ => .error (missing column)

/-- The integer in a column. -/
def integer (row : Row) (column : String) : Result Int64 :=
  match Dict.get? row column with
  | some (.integer value) => .ok value
  | _ => .error (missing column)

/-- The column in which whole records come back. -/
def recordColumn : String := "_row"

/-- The record that a row carries. -/
def toRecord (row : Row) : Result Object := do
  match ← require recordColumn (row.json? recordColumn) with
  | .obj fields => pure fields
  | other => throw (.internal (.notRecord other))

end Row

/-!
## Journals

Everything that goes to the engine, in order: the statements with their outcomes, and where
transactions start and end. A transaction inside another one is a savepoint, named by its depth.
-/

/-- What became of a statement. -/
inductive Outcome where
  | rows (rows : List Row)
  | affected (count : Nat)
  | failed (error : Error)

/-- An entry of a journal. -/
inductive Event where
  | began (depth : Nat)
  | kept (depth : Nat)
  | undone (depth : Nat)
  | sent (statement : Statement) (outcome : Outcome)

namespace Event

/-- The name of a savepoint at a depth. -/
def savepoint (depth : Nat) : String := "savepoint_" ++ toString depth

/-- The text of an entry. -/
def text : Event → String
  | .began 0 => "BEGIN"
  | .began depth => "SAVEPOINT " ++ savepoint depth
  | .kept 0 => "COMMIT"
  | .kept depth => "RELEASE SAVEPOINT " ++ savepoint depth
  | .undone 0 => "ROLLBACK"
  | .undone depth => "ROLLBACK TO SAVEPOINT " ++ savepoint depth
  | .sent statement _ => statement.text

/-- The values of an entry, if it is sent with values. -/
def params? : Event → Option (List Param)
  | .sent statement _ => statement.params?
  | _ => none

/-- Whether an entry ends an outermost transaction. -/
def endsTransaction : Event → Bool
  | .kept 0 | .undone 0 => true
  | _ => false

end Event

/-- The entries of a journal, oldest first. -/
abbrev Journal := List Event

namespace Journal

/-- The transactions of a journal after the entries `current` of one that has not ended; a statement
outside of any is one of its own. -/
def transactionsAfter (current : List Event) : Journal → List (List Event)
  | [] => if current.isEmpty then [] else [current]
  | event :: rest =>
    let isAlone := current.isEmpty && (match event with
      | .sent .. => true
      | _ => false)
    if isAlone || event.endsTransaction then (current ++ [event]) :: transactionsAfter [] rest
    else transactionsAfter (current ++ [event]) rest

/-- The outermost transactions of a journal, each with all that happened in it. -/
def transactions (journal : Journal) : List (List Event) := transactionsAfter [] journal

end Journal

end ObjectStore
