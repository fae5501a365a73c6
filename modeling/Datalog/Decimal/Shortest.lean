import Datalog.Decimal.Binary

/-!
# The shortest decimal text of a floating-point number

**Rule.** A decimal stands for a floating-point number if it lies in the interval of fractions
that round to it; the ends of the interval belong to it when the mantissa is even.  The text is
the decimal on the coarsest grid `10 ^ k` that has a point in the interval, and of two such points
the nearer one; of two points equally near, the upper one.

**Text form.** All digits are written out, however large or small the number is, and a whole
number has no point.
-/

namespace Datalog

section Shortest

namespace Shortest

/-- A fraction between whole numbers, with the interval around it: all over one denominator. -/
structure Interval where
  low : Nat
  value : Nat
  high : Nat
  denominator : Nat
  closed : Bool

/-- The interval of the fractions that round to `mantissa * 2 ^ exponent`. -/
def interval (mantissa : Nat) (exponent : Int) : Interval :=
  let below :=
    if mantissa = Binary.leastNormal ∧ exponent ≠ Binary.leastExponent then 1 else 2
  let scale := Nat.pow 2 (exponent - 2).toNat
  { low := (4 * mantissa - below) * scale
    value := 4 * mantissa * scale
    high := (4 * mantissa + 2) * scale
    denominator := Nat.pow 2 (2 - exponent).toNat
    closed := mantissa % 2 == 0 }

namespace Interval

/-- The interval on the grid of step `10 ^ k`: the grid points become the multiples of the second
number. -/
def onGrid (i : Interval) (k : Int) : Interval × Nat :=
  let finer := Nat.pow 10 (-k).toNat
  ({ i with low := i.low * finer, value := i.value * finer, high := i.high * finer },
    i.denominator * Nat.pow 10 k.toNat)

/-- Whether a number over the denominator lies in the interval. -/
def contains (i : Interval) (n : Nat) : Bool :=
  if i.closed then
    i.low ≤ n && n ≤ i.high
  else
    i.low < n && n < i.high

/-- The grid point of step `10 ^ k` in the interval, the nearest to the value if there are two. -/
def point? (i : Interval) (k : Int) : Option Nat :=
  let (scaled, step) := i.onGrid k
  let lower := scaled.value / step
  let upper := lower + 1
  match scaled.contains (lower * step), scaled.contains (upper * step) with
  | true, true =>
      if scaled.value - lower * step < upper * step - scaled.value then
        some lower
      else
        some upper
  | true, false => some lower
  | false, true => some upper
  | false, false => none

/-- The first grid point among the grids from `10 ^ k` downwards, with its grid. -/
def firstPoint? (i : Interval) (k : Int) : (grids : Nat) → Option (Nat × Int)
  | 0 => none
  | grids + 1 =>
      match i.point? k with
      | some digits => some (digits, k)
      | none => i.firstPoint? (k - 1) grids

end Interval

/-- The digits and the power of ten of the shortest decimal. -/
def decimal (mantissa : Nat) (exponent : Int) : Nat × Int :=
  ((interval mantissa exponent).firstPoint? 309 700).getD (0, 0)

/-- The decimal `digits * 10 ^ power` with all its digits. -/
def positional (digits : Nat) (power : Int) : String :=
  let written := Nat.toDigits 10 digits
  if 0 ≤ power then
    String.ofList (written ++ List.replicate power.toNat '0')
  else
    let places := (-power).toNat
    let padded := List.replicate (places + 1 - written.length) '0' ++ written
    String.ofList
      (padded.take (padded.length - places) ++ '.' :: padded.drop (padded.length - places))

/-- A minus sign where there is one. -/
def sign (negative : Bool) : String :=
  if negative then "-" else ""

/-- The text of a floating-point number. -/
def text (x : Float) : String :=
  match Binary.ofFloat x with
  | .notANumber => "NaN"
  | .infinite negative => sign negative ++ "inf"
  | .finite negative mantissa exponent =>
      if mantissa = 0 then
        sign negative ++ "0"
      else
        let (digits, power) := decimal mantissa exponent
        sign negative ++ positional digits power

end Shortest

end Shortest

end Datalog
