import Datalog.Settings.Tree
import Datalog.StandIn.Toml.DateTime

/-!
# Bare values of a TOML text

**Rule.** `true` and `false`; whole numbers of 64 bits with a sign, decimal or with `0x`, `0o` or
`0b` before the digits; fractions with a point or an exponent; `inf` and `nan`.  Single
underscores may stand between digits, and decimal digits do not start with a needless zero.
A date or time counts as a table with its text at a key of its own.
-/

namespace Datalog

section Scalar

namespace Scalar

/-- The value of a digit in a base up to sixteen. -/
def digit? (base : Nat) (c : Char) : Option Nat :=
  let value :=
    if c.isDigit then
      c.toNat - '0'.toNat
    else if 'a' ≤ c && c ≤ 'f' then
      c.toNat - 'a'.toNat + 10
    else if 'A' ≤ c && c ≤ 'F' then
      c.toNat - 'A'.toNat + 10
    else
      base
  if value < base then some value else none

/-- The digits after a first one, where each may have one underscore before it. -/
def moreDigits? (base : Nat) : List Char → Option (List Nat)
  | [] => some []
  | '_' :: c :: rest =>
      match digit? base c, moreDigits? base rest with
      | some value, some values => some (value :: values)
      | _, _ => none
  | c :: rest =>
      match digit? base c, moreDigits? base rest with
      | some value, some values => some (value :: values)
      | _, _ => none

/-- The digits of a number, at least one. -/
def digits? (base : Nat) : List Char → Option (List Nat)
  | [] => none
  | c :: rest =>
      match digit? base c, moreDigits? base rest with
      | some value, some values => some (value :: values)
      | _, _ => none

/-- The number that digits write. -/
def number (base : Nat) (digits : List Nat) : Nat :=
  digits.foldl (fun value digit => base * value + digit) 0

/-- The decimal digits of the whole part of a number: a zero stands alone. -/
def wholeDigits? (cs : List Char) : Option (List Nat) :=
  match digits? 10 cs with
  | some (0 :: _ :: _) => none
  | found => found

/-- A leading sign, as whether there is one and whether it is a minus, and what follows it. -/
def splitSign : List Char → (Bool × Bool) × List Char
  | '+' :: rest => ((true, false), rest)
  | '-' :: rest => ((true, true), rest)
  | cs => ((false, false), cs)

/-- The whole number that a text writes, in the range of 64 bits with a sign. -/
def integer? (cs : List Char) : Option Int :=
  let magnitude? :=
    match cs with
    | '0' :: 'x' :: rest => (digits? 16 rest).map (number 16)
    | '0' :: 'o' :: rest => (digits? 8 rest).map (number 8)
    | '0' :: 'b' :: rest => (digits? 2 rest).map (number 2)
    | _ => (wholeDigits? (splitSign cs).2).map (number 10)
  match magnitude? with
  | none => none
  | some magnitude =>
      let value : Int := if (splitSign cs).1.2 then -magnitude else magnitude
      if Int64.minValue.toInt ≤ value ∧ value ≤ Int64.maxValue.toInt then some value else none

/-- Whether a character belongs to a group of digits. -/
def inDigits (c : Char) : Bool :=
  c.isDigit || c == '_'

/-- The digits of the fraction after a point, none where there is no point, and what follows. -/
def fraction? (cs : List Char) : Option (List Nat) × List Char :=
  match cs with
  | '.' :: rest => (digits? 10 (rest.takeWhile inDigits), rest.dropWhile inDigits)
  | _ => (some [], cs)

/-- The exponent at the end of a number, zero where there is none. -/
def exponent? : List Char → Option Int
  | [] => some 0
  | c :: rest =>
      if c = 'e' ∨ c = 'E' then
        (digits? 10 (splitSign rest).2).map fun digits =>
          if (splitSign rest).1.2 then -(number 10 digits : Int) else number 10 digits
      else
        none

/-- The fraction that a text writes, with a point or an exponent.  One that is too large has no
value. -/
def float? (cs : List Char) : Option Float :=
  let ((_, negative), unsigned) := splitSign cs
  if unsigned = ['i', 'n', 'f'] then
    some (if negative then -(1.0 / 0.0) else 1.0 / 0.0)
  else if unsigned = ['n', 'a', 'n'] then
    some (0.0 / 0.0)
  else if unsigned.all inDigits then
    none
  else
    let (fractionDigits?, rest) := fraction? (unsigned.dropWhile inDigits)
    match wholeDigits? (unsigned.takeWhile inDigits), fractionDigits?, exponent? rest with
    | some whole, some fraction, some exponent =>
        let value :=
          Binary.round negative (number 10 (whole ++ fraction)) (exponent - fraction.length)
        if value == 1.0 / 0.0 then none else some value
    | _, _, _ => none

/-- The key at which the table for a date or time holds its text. -/
def dateTimeKey : String :=
  "$__toml_private_datetime"

/-- The value of a bare text. -/
def ofText? (text : String) : Option SettingTree :=
  if text = "true" then
    some (.boolean true)
  else if text = "false" then
    some (.boolean false)
  else if DateTime.holds text.toList then
    some (.table [(dateTimeKey, .text text)])
  else
    match integer? text.toList with
    | some value => some (.signed value)
    | none => (float? text.toList).map .float

end Scalar

end Scalar

end Datalog
