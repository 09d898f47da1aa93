import ObjectStore.Text.Split

/-!
# Classes of engine failures

The engine names the class of a failure by a five-character state code. Only six classes matter
here. Where the code did not travel with the failure its class is read off the standard text of
the engine's message.
-/

namespace ObjectStore

/-- The classes of engine failures that the store reacts to. -/
inductive SqlState where
  | undefinedTable
  | duplicateTable
  | duplicateColumn
  | undefinedColumn
  | uniqueViolation
  | duplicateObject
  deriving Repr, DecidableEq

namespace SqlState

/-- The state code of a class. -/
def code : SqlState → String
  | .undefinedTable => "42P01"
  | .duplicateTable => "42P07"
  | .duplicateColumn => "42701"
  | .undefinedColumn => "42703"
  | .uniqueViolation => "23505"
  | .duplicateObject => "42710"

/-- The name of a class. -/
def name : SqlState → String
  | .undefinedTable => "UndefinedTable"
  | .duplicateTable => "DuplicateTable"
  | .duplicateColumn => "DuplicateColumn"
  | .undefinedColumn => "UndefinedColumn"
  | .uniqueViolation => "UniqueViolation"
  | .duplicateObject => "DuplicateObject"

/-- The class that the text of a message tells, if any. -/
def ofMessage? (message : String) : Option SqlState :=
  if Text.contains message "duplicate key value violates unique constraint" then
    some .uniqueViolation
  else if Text.contains message "already exists" then
    if Text.contains message "column \"" then some .duplicateColumn
    else if Text.contains message "relation \"" then some .duplicateTable
    else some .duplicateObject
  else if Text.contains message "does not exist" then
    if Text.contains message "column \"" then some .undefinedColumn
    else if Text.contains message "relation \"" then some .undefinedTable
    else none
  else none

/-- Whether a class is that of creating something that another request created first. -/
def isCreationRace : SqlState → Bool
  | .duplicateTable | .duplicateObject | .duplicateColumn => true
  | _ => false

end SqlState

end ObjectStore
