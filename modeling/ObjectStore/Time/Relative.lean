import ObjectStore.Time.Timestamp
import ObjectStore.Text.Lowercase

/-!
# Relative times

`in 2 days`, `3 hours 5 minutes ago` and `now` name a moment by its distance from another. Words are
separated by blanks and read without regard to case; numbers and units alternate.

Distances are counted in 64-bit seconds and wrap around beyond.
-/

namespace ObjectStore.RelativeTime

/-- Seconds of a unit of time. -/
def unitSeconds? (unit : String) : Option Int :=
  match unit with
  | "yr" | "yrs" | "year" | "years" => some 31536000
  | "wk" | "wks" | "week" | "weeks" => some 604800
  | "d" | "day" | "days" => some 86400
  | "hr" | "hrs" | "hour" | "hours" => some 3600
  | "min" | "mins" | "minute" | "minutes" => some 60
  | "sec" | "secs" | "second" | "seconds" => some 1
  | _ => none

/-- An integer brought into the range of 64-bit words with sign. -/
def wrap (n : Int) : Int := (Int64.ofInt n).toInt

/-- Reads a 64-bit integer: an optional sign and at least one digit. -/
def readInteger? (text : String) : Option Int :=
  let (negative, digits) := Decimal.takeSign text.toList
  if digits.isEmpty || !digits.all Char.isDigit then none
  else
    let size : Int := Decimal.ofDigits digits
    let n := if negative then -size else size
    if Int64.minValue.toInt ≤ n ∧ n ≤ Int64.maxValue.toInt then some n else none

/-- The sum of the distances that pairs of a number and a unit name, added to `total`. -/
def sumPairs (total : Int) : List String → Result Int
  | number :: unit :: rest =>
    match readInteger? number with
    | none => .error (.invalidJson (.relativeNumber number))
    | some amount =>
      match unitSeconds? unit with
      | none => .error (.invalidJson (.relativeUnit unit))
      | some seconds => sumPairs (wrap (total + wrap (amount * seconds))) rest
  | _ => .ok total

/-- Which way a relative time points. -/
inductive Direction where
  | future
  | past
  | present
  deriving Repr, DecidableEq

/-- The direction of a relative time, and the words that measure its distance. -/
def direction (text : String) (words : List String) : Result (Direction × List String) :=
  match words.head? == some "in", words.getLast? == some "ago" with
  | true, true => .error (.invalidJson .relativeBoth)
  | true, false => .ok (.future, words.drop 1)
  | false, true => .ok (.past, words.dropLast)
  | false, false =>
    if text = "now" then .ok (.present, []) else .error (.invalidJson .relativeForm)

/-- The moment that a relative time names, seen from `now`. -/
def resolve (text : String) (now : Timestamp) : Result Timestamp := do
  let text := Text.lower text
  let words := (Text.split ' ' text).filter fun word => !word.isEmpty
  let (direction, words) ← direction text words
  if words.length % 2 ≠ 0 then throw (.invalidJson .relativeDangling)
  let seconds ← sumPairs 0 words
  match direction with
  | .future => now.addSeconds seconds
  | .past => now.addSeconds (-seconds)
  | .present => pure now

end ObjectStore.RelativeTime
