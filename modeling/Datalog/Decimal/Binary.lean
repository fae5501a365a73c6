/-!
# Binary floating-point numbers as exact fractions

**Type.** A finite number is a sign, a whole mantissa and a power of two.

**Operations.** Taking a number apart, and rounding a decimal fraction to the nearest number.
-/

namespace Datalog

section Binary

/-- A floating-point number taken apart; a finite one is `mantissa * 2 ^ exponent`. -/
inductive Binary where
  | notANumber
  | infinite (negative : Bool)
  | finite (negative : Bool) (mantissa : Nat) (exponent : Int)
deriving DecidableEq, Repr

namespace Binary

/-- The mantissa of the smallest number with a given exponent, save for the least exponent. -/
def leastNormal : Nat :=
  Nat.pow 2 52

/-- The least exponent. -/
def leastExponent : Int :=
  -1074

/-- Takes a number apart. -/
def ofFloat (x : Float) : Binary :=
  let bits : Nat := x.toBits.toNat
  let negative := bits / Nat.pow 2 63 == 1
  let field : Nat := bits / leastNormal % Nat.pow 2 11
  let fraction : Nat := bits % leastNormal
  if field = Nat.pow 2 11 - 1 then
    if fraction = 0 then infinite negative else notANumber
  else if field = 0 then
    finite negative fraction leastExponent
  else
    finite negative (leastNormal + fraction) (leastExponent + field - 1)

/-- The number nearest to `digits * 10 ^ exponent`.  Exponents far outside the range of the
numbers are answered at once. -/
def round (negative : Bool) (digits : Nat) (exponent : Int) : Float :=
  let leading := (Nat.toDigits 10 digits).length + exponent
  let magnitude :=
    if digits = 0 ∨ leading < -400 then
      0.0
    else if leading > 400 then
      1.0 / 0.0
    else
      Float.ofScientific digits (exponent < 0) exponent.natAbs
  if negative then -magnitude else magnitude

end Binary

end Binary

end Datalog
