import ObjectStore.Json.Basic
import ObjectStore.Decimal.Reading

/-!
# Reading JSON text

`Json.readAll?` accepts exactly one value with blanks around it, and keeps the members of objects as
they are written. Arrays and objects may be nested 127 deep, a number whose double is infinite is
refused, and so is half of a surrogate pair. `Json.parse?` puts the members of what was read into
key order; of two members with one name the later counts.

Every call of the reader consumes a character before it calls itself, so the length of the text
bounds the number of steps.
-/

namespace ObjectStore.Json

/-- The blanks of JSON. -/
def isBlank (c : Char) : Bool := c = ' ' || c = '\n' || c = '\t' || c = '\r'

/-- Drops the blanks at the start. -/
def skipBlanks (s : List Char) : List Char := s.dropWhile isBlank

/-- The value of a hexadecimal digit. -/
def hexValue? (c : Char) : Option Nat :=
  if c.isDigit then some (c.toNat - '0'.toNat)
  else if 'a' ≤ c ∧ c ≤ 'f' then some (c.toNat - 'a'.toNat + 10)
  else if 'A' ≤ c ∧ c ≤ 'F' then some (c.toNat - 'A'.toNat + 10)
  else none

/-- Reads a code unit of four hexadecimal digits. -/
def readUnit? : List Char → Option (Nat × List Char)
  | a :: b :: c :: d :: rest => do
    let a ← hexValue? a
    let b ← hexValue? b
    let c ← hexValue? c
    let d ← hexValue? d
    pure (((a * 16 + b) * 16 + c) * 16 + d, rest)
  | _ => none

/-- Reads what follows `\u`: one code unit, or the two of a surrogate pair. -/
def readCodePoint? (s : List Char) : Option (Char × List Char) := do
  let (unit, rest) ← readUnit? s
  if unit < 0xD800 ∨ 0xDFFF < unit then pure (Char.ofNat unit, rest)
  else if 0xDC00 ≤ unit then none
  else match rest with
    | '\\' :: 'u' :: rest => do
      let (low, rest) ← readUnit? rest
      if 0xDC00 ≤ low ∧ low ≤ 0xDFFF then
        pure (Char.ofNat (0x10000 + (unit - 0xD800) * 0x400 + (low - 0xDC00)), rest)
      else none
    | _ => none

/-- The character an escape other than `\u` stands for. -/
def escaped? : Char → Option Char
  | '"' => some '"'
  | '\\' => some '\\'
  | '/' => some '/'
  | 'b' => some '\x08'
  | 'f' => some '\x0c'
  | 'n' => some '\n'
  | 'r' => some '\r'
  | 't' => some '\t'
  | _ => none

/-- Reads the rest of a string up to its closing quote, collecting the characters backwards. -/
def readString? : Nat → List Char → List Char → Option (String × List Char)
  | 0, _, _ => none
  | fuel + 1, collected, s =>
    match s with
    | '"' :: rest => some (String.ofList collected.reverse, rest)
    | '\\' :: 'u' :: rest => do
      let (c, rest) ← readCodePoint? rest
      readString? fuel (c :: collected) rest
    | '\\' :: c :: rest => do
      let c ← escaped? c
      readString? fuel (c :: collected) rest
    | c :: rest => if c.toNat < 32 then none else readString? fuel (c :: collected) rest
    | [] => none

/-- Splits off a fraction: a point and at least one digit, or nothing. -/
def readFraction? : List Char → Option (List Char × List Char)
  | '.' :: rest =>
    let (digits, rest) := Decimal.takeDigits rest
    if digits.isEmpty then none else some (digits, rest)
  | s => some ([], s)

/-- Splits off an exponent: a mark, an optional sign and at least one digit, or nothing. -/
def readExponent? : List Char → Option (Option Int × List Char)
  | [] => some (none, [])
  | c :: rest =>
    if c = 'e' ∨ c = 'E' then
      let (negative, rest) := Decimal.takeSign rest
      let (digits, rest) := Decimal.takeDigits rest
      if digits.isEmpty then none
      else
        let size : Int := Decimal.ofDigits digits
        some (some (if negative then -size else size), rest)
    else some (none, c :: rest)

/-- A number as it is written: whether it has a minus, the digits before and after the point, and
the exponent if it has one. -/
structure Numeral where
  negative : Bool
  whole : List Char
  fraction : List Char
  exponent : Option Int
  deriving Repr, DecidableEq

/-- Splits off a number; digits before the point start with a zero only if it stands alone. -/
def splitNumeral? (s : List Char) : Option (Numeral × List Char) := do
  let (negative, s) := match s with
    | '-' :: rest => (true, rest)
    | s => (false, s)
  let (whole, s) := Decimal.takeDigits s
  if whole.isEmpty || (whole.length > 1 && whole.head? == some '0') then none
  let (fraction, s) ← readFraction? s
  let (exponent, s) ← readExponent? s
  pure (⟨negative, whole, fraction, exponent⟩, s)

/-- A double that is a number. -/
def finite? (x : Float) : Option Json := if x.isFinite then some (.double x) else none

/-- The number written as an integer: out of range, or as a negative zero, it is a double. -/
def ofInteger? (negative : Bool) (n : Nat) : Option Json :=
  if negative then
    if n = 0 then some (.double (-0.0))
    else if Int64.minValue.toInt ≤ -n then some (.int (-n))
    else finite? (Decimal.nearest true n 0)
  else if n < UInt64.size then some (.int n)
  else finite? (Decimal.nearest false n 0)

/-- The value of a number as it is written, unless its double is infinite. -/
def Numeral.value? (n : Numeral) : Option Json :=
  if n.fraction.isEmpty && n.exponent.isNone then ofInteger? n.negative (Decimal.ofDigits n.whole)
  else finite? (Decimal.nearest n.negative (Decimal.ofDigits (n.whole ++ n.fraction))
    (n.exponent.getD 0 - n.fraction.length))

/-- Reads a number. -/
def readNumber? (s : List Char) : Option (Json × List Char) := do
  let (numeral, rest) ← splitNumeral? s
  let value ← numeral.value?
  pure (value, rest)

/-- How deep arrays and objects may be nested. -/
def maxDepth : Nat := 127

mutual

/-- Reads a value. -/
def readValue? : Nat → Nat → List Char → Option (Json × List Char)
  | 0, _, _ => none
  | fuel + 1, depth, s =>
    match skipBlanks s with
    | 'n' :: 'u' :: 'l' :: 'l' :: rest => some (.null, rest)
    | 't' :: 'r' :: 'u' :: 'e' :: rest => some (.bool true, rest)
    | 'f' :: 'a' :: 'l' :: 's' :: 'e' :: rest => some (.bool false, rest)
    | '"' :: rest =>
      (readString? (rest.length + 1) [] rest).map fun (text, rest) => (.str text, rest)
    | '[' :: rest =>
      if depth = 0 then none
      else match skipBlanks rest with
        | ']' :: rest => some (.arr [], rest)
        | rest => (readItems? fuel (depth - 1) rest).map fun (items, rest) => (.arr items, rest)
    | '\x7b' :: rest =>
      if depth = 0 then none
      else match skipBlanks rest with
        | '\x7d' :: rest => some (.obj [], rest)
        | rest => (readFields? fuel (depth - 1) rest).map fun (fields, rest) => (.obj fields, rest)
    | rest => readNumber? rest

/-- Reads the items of an array that has some, and its closing bracket. -/
def readItems? : Nat → Nat → List Char → Option (List Json × List Char)
  | 0, _, _ => none
  | fuel + 1, depth, s => do
    let (item, rest) ← readValue? fuel depth s
    match skipBlanks rest with
    | ',' :: rest => do
      let (items, rest) ← readItems? fuel depth rest
      pure (item :: items, rest)
    | ']' :: rest => pure ([item], rest)
    | _ => none

/-- Reads the members of an object that has some, and its closing brace. -/
def readFields? : Nat → Nat → List Char → Option (List (String × Json) × List Char)
  | 0, _, _ => none
  | fuel + 1, depth, s =>
    match skipBlanks s with
    | '"' :: rest => do
      let (key, rest) ← readString? (rest.length + 1) [] rest
      match skipBlanks rest with
      | ':' :: rest => do
        let (value, rest) ← readValue? fuel depth rest
        match skipBlanks rest with
        | ',' :: rest => do
          let (fields, rest) ← readFields? fuel depth rest
          pure ((key, value) :: fields, rest)
        | '\x7d' :: rest => pure ([(key, value)], rest)
        | _ => none
      | _ => none
    | _ => none

end

/-- The value that characters hold, if they hold exactly one nested at most `depth` deep, with the
members of objects as written. -/
def readAll? (depth : Nat) (s : List Char) : Option Json := do
  let (value, rest) ← readValue? (s.length + 1) depth s
  if (skipBlanks rest).isEmpty then pure value else none

mutual

/-- The value with the members of every object in key order, each name once. -/
def canonical : Json → Json
  | .arr items => .arr (canonicalItems items)
  | .obj fields => ofEntries (canonicalFields fields)
  | value => value

/-- `canonical` on every item. -/
def canonicalItems : List Json → List Json
  | [] => []
  | item :: rest => canonical item :: canonicalItems rest

/-- `canonical` on the value of every member. -/
def canonicalFields : List (String × Json) → List (String × Json)
  | [] => []
  | (key, value) :: rest => (key, canonical value) :: canonicalFields rest

end

/-- The value a text holds, if it holds exactly one. -/
def parse? (text : String) : Option Json := (readAll? maxDepth text.toList).map canonical

end ObjectStore.Json
