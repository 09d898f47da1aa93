import ObjectStore.Error.Fault
import ObjectStore.Error.SqlState

/-!
# Errors

An error is one of nine kinds, each with its numeric code for clients and with its cause; the
message is worded from the cause. Besides these there is one way to fail without an answer at all:
a date that leaves the calendar, `calendarLeft`, ends the whole run.
-/

namespace ObjectStore

/-- A failed request. -/
inductive Error where
  | invalidQuery (fault : QueryFault)
  | invalidKeyName (fault : KeyFault)
  | invalidNestedKey
  | invalidJson (fault : ValueFault)
  | duplicateValue (field : Option String)
  | objectNotFound (fault : AbsenceFault)
  | operationForbidden (fault : ForbiddenFault)
  | internal (fault : InternalFault)
  | storage (message : String) (state : Option SqlState)
  | calendarLeft

namespace Error

/-- The kind of an error. -/
def kind : Error → String
  | .invalidQuery _ => "InvalidQuery"
  | .invalidKeyName _ => "InvalidKeyName"
  | .invalidNestedKey => "InvalidNestedKey"
  | .invalidJson _ => "InvalidJson"
  | .duplicateValue _ => "DuplicateValue"
  | .objectNotFound _ => "ObjectNotFound"
  | .operationForbidden _ => "OperationForbidden"
  | .internal _ => "Internal"
  | .storage .. => "Storage"
  | .calendarLeft => "CalendarLeft"

/-- The numeric code of an error that clients understand. -/
def code : Error → Nat
  | .invalidQuery _ => 102
  | .invalidKeyName _ => 105
  | .invalidNestedKey => 121
  | .invalidJson _ => 107
  | .duplicateValue _ => 137
  | .objectNotFound _ => 101
  | .operationForbidden _ => 119
  | .internal _ | .storage .. | .calendarLeft => 1

/-- The message of an error. -/
def message : Error → String
  | .invalidQuery fault => fault.message
  | .invalidKeyName fault => fault.message
  | .invalidNestedKey => "Nested keys should not contain the '$' or '.' characters"
  | .invalidJson fault => fault.message
  | .duplicateValue _ => "A duplicate value for a field with unique values was provided"
  | .objectNotFound fault => fault.message
  | .operationForbidden fault => fault.message
  | .internal fault => fault.message
  | .storage message _ => message
  | .calendarLeft => "the date leaves the calendar"

/-- The words that introduce the message of an error of one kind. -/
def heading : Error → String
  | .invalidQuery _ => "invalid query"
  | .invalidKeyName _ => "invalid key name"
  | .invalidNestedKey => "invalid nested key"
  | .invalidJson _ => "invalid json"
  | .duplicateValue _ => "duplicate value"
  | .objectNotFound _ => "object not found"
  | .operationForbidden _ => "operation forbidden"
  | .internal _ => "internal server error"
  | .storage .. => "storage error"
  | .calendarLeft => "calendar"

/-- The error as one line of text. -/
def display (e : Error) : String := e.heading ++ ": " ++ e.message

/-- The class of the engine failure behind an error. -/
def state? : Error → Option SqlState
  | .storage _ state => state
  | _ => none

/-- Whether an error is an engine failure of a class. -/
def isState (e : Error) (state : SqlState) : Bool := e.state? == some state

/-- Whether an error tells that a table is missing. -/
def isUndefinedTable (e : Error) : Bool := e.isState .undefinedTable

/-- Whether another request created the same object first. -/
def isCreationRace (e : Error) : Bool := e.state?.any SqlState.isCreationRace

/-- The error of an engine failure with a given text. -/
def ofEngine (message : String) : Error := .storage message (SqlState.ofMessage? message)

end Error

/-- An answer or the reason why there is none. -/
abbrev Result (α : Type) := Except Error α

/-!
## Failed writes

A write that a unique index refuses is told as a duplicate value. The name of such an index ends in
`unique_` and the names of its fields, so the first word after that mark is the field.
-/

/-- The mark before the fields in the name of a unique index. -/
def uniqueMark : String := "unique_"

/-- The run of letters after the first mark that has one. -/
def lettersAfterMark? : List Char → Option (List Char)
  | [] => none
  | c :: rest =>
    let letters := ((Text.afterStart? uniqueMark.toList (c :: rest)).getD []).takeWhile Char.isAlpha
    if letters.isEmpty then lettersAfterMark? rest else some letters

/-- The field that the message of a failure names as the one that is to be unique. -/
def duplicatedField? (message : String) : Option String :=
  (lettersAfterMark? message.toList).map String.ofList

/-- The failure of a write as clients see it. -/
def Error.ofWrite (e : Error) : Error :=
  if e.isState .uniqueViolation then .duplicateValue (duplicatedField? e.message) else e

end ObjectStore
