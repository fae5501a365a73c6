/-!
# Numbers in decimal digits

**Rule.** A whole number is written by at least one digit, perhaps after a sign; an exponent is a
letter `e` in either case and a whole number after it.
-/

namespace Datalog

section Digits

namespace Digits

/-- The number that decimal digits write, at least one digit. -/
def natural? (cs : List Char) : Option Nat :=
  if cs.isEmpty || !cs.all Char.isDigit then
    none
  else
    some (cs.foldl (fun value c => 10 * value + (c.toNat - '0'.toNat)) 0)

/-- A leading sign, as whether it is a minus, and what follows it. -/
def splitSign : List Char → Bool × List Char
  | '+' :: rest => (false, rest)
  | '-' :: rest => (true, rest)
  | cs => (false, cs)

/-- A whole number with a sign. -/
def integer? (cs : List Char) : Option Int :=
  let (negative, digits) := splitSign cs
  (natural? digits).map fun value => if negative then -value else value

/-- The exponent at the end of a number, zero where there is none. -/
def exponent? : List Char → Option Int
  | [] => some 0
  | c :: rest => if c = 'e' ∨ c = 'E' then integer? rest else none

end Digits

end Digits

end Datalog
