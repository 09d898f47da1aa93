import ObjectStore.Decimal.Shortest

/-!
# Reading decimals

`nearest` is the double nearest to `± coefficient * 10 ^ exponent`, an infinity beyond the largest
double. `readDouble?` reads the text form of a stored coordinate: digits with an optional sign,
point and exponent, or one of the words for infinity and NaN in any case of letters.
-/

namespace ObjectStore.Decimal

/-- Changes the sign of a double if asked to. -/
def signed (negative : Bool) (x : Float) : Float := if negative then -x else x

/-- The double nearest to a decimal. Decimals far outside the range of doubles are settled by their
size alone, so that no power of ten is formed for them. -/
def nearest (negative : Bool) (coefficient : Nat) (exponent : Int) : Float :=
  if coefficient = 0 then signed negative 0.0
  else
    let size := (digitCount coefficient : Int) + exponent
    if 400 < size then signed negative (1.0 / 0.0)
    else if size < -400 then signed negative 0.0
    else if 0 ≤ exponent then signed negative (Float.ofScientific coefficient false exponent.toNat)
    else signed negative (Float.ofScientific coefficient true (-exponent).toNat)

/-- The value of a digit. -/
def digitValue (c : Char) : Nat := c.toNat - '0'.toNat

/-- The number a list of digits stands for. -/
def ofDigits (digits : List Char) : Nat := digits.foldl (fun n c => 10 * n + digitValue c) 0

/-- Splits off the longest run of digits at the start. -/
def takeDigits (s : List Char) : List Char × List Char :=
  (s.takeWhile Char.isDigit, s.dropWhile Char.isDigit)

/-- Splits off a sign; the flag tells a minus. -/
def takeSign : List Char → Bool × List Char
  | '-' :: rest => (true, rest)
  | '+' :: rest => (false, rest)
  | s => (false, s)

/-- Reads an exponent mark, an optional sign and at least one digit to the end of the text. -/
def readExponent? : List Char → Option Int
  | [] => some 0
  | c :: rest =>
    if c = 'e' ∨ c = 'E' then
      let (negative, rest) := takeSign rest
      let (digits, rest) := takeDigits rest
      if digits.isEmpty || !rest.isEmpty then none
      else some (if negative then -(ofDigits digits : Int) else ofDigits digits)
    else none

/-- Reads an unsigned decimal to the end of the text: digits on at least one side of the point. -/
def readUnsigned? (negative : Bool) (s : List Char) : Option Float :=
  let (whole, rest) := takeDigits s
  let (fraction, rest) := match rest with
    | '.' :: rest => takeDigits rest
    | rest => ([], rest)
  if whole.isEmpty && fraction.isEmpty then none
  else (readExponent? rest).map fun exponent =>
    nearest negative (ofDigits (whole ++ fraction)) (exponent - fraction.length)

/-- Reads the text form of a double. -/
def readDouble? (text : String) : Option Float :=
  let (negative, rest) := takeSign text.toList
  match String.ofList (rest.map Char.toLower) with
  | "inf" | "infinity" => some (signed negative (1.0 / 0.0))
  | "nan" => some (0.0 / 0.0)
  | _ => readUnsigned? negative rest

end ObjectStore.Decimal
