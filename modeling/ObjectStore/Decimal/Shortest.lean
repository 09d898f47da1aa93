/-!
# Shortest decimals

A double stands for the interval of real numbers that round to it. `shortest` finds the decimal of
fewest digits inside that interval, and of those with as few digits the one nearest to the double.

Everything is exact arithmetic on natural numbers: a double is `m * 2 ^ q`, so four times its
mantissa, and the ends of its interval, are whole multiples of one power of ten, and a grid of
`n` digits is tested through the two neighbours of the value on that grid.
-/

namespace ObjectStore.Decimal

/-- A finite magnitude `mantissa * 2 ^ exponent`. `boundary` tells that the next smaller double is
nearer than the next larger one, which is so at the powers of two. -/
structure Dyadic where
  mantissa : Nat
  exponent : Int
  boundary : Bool
  deriving Repr, DecidableEq

/-- The magnitude of a finite double, read off its bits. -/
def Dyadic.ofFloat (x : Float) : Dyadic :=
  let bits : Nat := x.toBits.toNat % Nat.pow 2 63
  let field : Nat := bits / Nat.pow 2 52
  let fraction : Nat := bits % Nat.pow 2 52
  if field = 0 then ⟨fraction, -1074, false⟩
  else ⟨Nat.pow 2 52 + fraction, (field : Int) - 1075, fraction = 0 && 1 < field⟩

/-- A decimal magnitude `coefficient * 10 ^ exponent`. -/
structure Magnitude where
  coefficient : Nat
  exponent : Int
  deriving Repr, DecidableEq

/-- How many digits a number has in base ten. -/
def digitCount (n : Nat) : Nat := (Nat.toDigits 10 n).length

/-- Moves the factors of ten of a coefficient into the exponent; at most `fuel` of them. -/
def Magnitude.strip : Nat → Magnitude → Magnitude
  | 0, d => d
  | fuel + 1, d =>
    if d.coefficient ≠ 0 ∧ d.coefficient % 10 = 0 then
      strip fuel ⟨d.coefficient / 10, d.exponent + 1⟩
    else d

/-- Which of the two neighbours of a value on a grid is taken when both lie equally near. -/
inductive Tie where
  | up
  | even
  deriving Repr, DecidableEq

/-- The interval of a double in units of one power of ten: the value, the two ends, and whether
the ends themselves round to the double. -/
structure Interval where
  low : Nat
  value : Nat
  high : Nat
  closed : Bool
  unit : Int
  deriving Repr, DecidableEq

/-- The interval of the reals that round to a magnitude: half a step up, and half a step down or a
quarter at a boundary. The ends belong to it iff the mantissa is even. -/
def Dyadic.interval (d : Dyadic) : Interval :=
  let scale := d.exponent - 2
  let factor := if 0 ≤ scale then Nat.pow 2 scale.toNat else Nat.pow 5 (-scale).toNat
  let below := if d.boundary then 1 else 2
  { low := (4 * d.mantissa - below) * factor
    value := 4 * d.mantissa * factor
    high := (4 * d.mantissa + 2) * factor
    closed := d.mantissa % 2 = 0
    unit := if 0 ≤ scale then 0 else scale }

/-- Whether a number of units lies in the interval. -/
def Interval.contains (i : Interval) (n : Nat) : Bool :=
  if i.closed then i.low ≤ n && n ≤ i.high else i.low < n && n < i.high

/-- The point of the grid of multiples of `step` that lies in the interval nearest to the value,
counted in steps. -/
def Interval.onGrid? (i : Interval) (tie : Tie) (step : Nat) : Option Nat :=
  let down := i.value / step
  let rest := i.value % step
  match i.contains (down * step), i.contains ((down + 1) * step) with
  | true, true =>
    if 2 * rest < step then some down
    else if step < 2 * rest then some (down + 1)
    else match tie with
      | .up => some (down + 1)
      | .even => some (if down % 2 = 0 then down else down + 1)
  | true, false => some down
  | false, true => some (down + 1)
  | false, false => none

/-- The first grid with a hit, from `n` digits on; `fuel` bounds the number of grids tried. -/
def Interval.search (i : Interval) (tie : Tie) (size : Nat) : Nat → Nat → Magnitude
  | 0, _ => ⟨i.value, i.unit⟩
  | fuel + 1, n =>
    let zeros := size - n
    match i.onGrid? tie (Nat.pow 10 zeros) with
    | some c => ⟨c, i.unit + zeros⟩
    | none => search i tie size fuel (n + 1)

/-- The decimal of fewest digits that reads back as the magnitude of a finite double; zero for
zero. -/
def shortest (tie : Tie) (x : Float) : Magnitude :=
  let d := Dyadic.ofFloat x
  if d.mantissa = 0 then ⟨0, 0⟩
  else
    let i := d.interval
    (i.search tie (digitCount i.value) 17 1).strip 20

/-!
## Written doubles

Two layouts write a double with its shortest digits. `Layout.json` is that of JSON text: positional
while the decimal exponent is from `-5` to `15`, with `.0` on whole numbers, and with a signed
exponent outside. `Layout.plain` is that of geometry literals and of bounds in messages: always
positional and without `.0`.
-/

/-- The conventions of one written form. -/
structure Layout where
  /-- Which neighbour wins when two shortest decimals lie equally near. -/
  tie : Tie
  /-- Whether a whole number is followed by `.0`. -/
  wholePoint : Bool
  /-- The least and the greatest decimal exponent written positionally; without them all are. -/
  positional : Option (Int × Int)

/-- JSON text: `1.0`, `0.00001`, `1e-6`, `1e+16`. -/
def Layout.json : Layout := ⟨.even, true, some (-5, 15)⟩

/-- Geometry text: `1`, `0.000001`, `10000000000000000`. -/
def Layout.plain : Layout := ⟨.up, false, none⟩

/-- Whether a decimal exponent is written positionally. -/
def Layout.isPositional (layout : Layout) (exponent : Int) : Bool :=
  match layout.positional with
  | none => true
  | some (least, greatest) => least ≤ exponent && exponent ≤ greatest

private def zeroes (n : Nat) : List Char := List.replicate n '0'

/-- Digits with the point `point` places after their start. -/
def positionalText (digits : List Char) (point : Int) (wholePoint : Bool) : List Char :=
  if point ≤ 0 then '0' :: '.' :: (zeroes (-point).toNat ++ digits)
  else
    let whole := point.toNat
    if digits.length ≤ whole then
      digits ++ zeroes (whole - digits.length) ++ (if wholePoint then ['.', '0'] else [])
    else digits.take whole ++ '.' :: digits.drop whole

/-- Digits with one of them before the point, and a signed exponent. -/
def exponentText (digits : List Char) (exponent : Int) : List Char :=
  let head := digits.take 1
  let tail := digits.drop 1
  let fraction := if tail.isEmpty then [] else '.' :: tail
  let sign := if exponent < 0 then '-' else '+'
  head ++ fraction ++ 'e' :: sign :: Nat.toDigits 10 exponent.natAbs

/-- The text of a magnitude. -/
def Layout.magnitudeText (layout : Layout) (d : Magnitude) : List Char :=
  let digits := Nat.toDigits 10 d.coefficient
  if d.coefficient = 0 then if layout.wholePoint then ['0', '.', '0'] else ['0']
  else
    let point := (digits.length : Int) + d.exponent
    if layout.isPositional (point - 1) then positionalText digits point layout.wholePoint
    else exponentText digits (point - 1)

/-- The sign bit of a double, set also on negative zero. -/
def isNegative (x : Float) : Bool := x.toBits.toNat.testBit 63

/-- The text of a double. -/
def Layout.write (layout : Layout) (x : Float) : String :=
  if x.isNaN then "NaN"
  else if x.isInf then if isNegative x then "-inf" else "inf"
  else
    let text := layout.magnitudeText (shortest layout.tie x)
    String.ofList (if isNegative x then '-' :: text else text)

end ObjectStore.Decimal
