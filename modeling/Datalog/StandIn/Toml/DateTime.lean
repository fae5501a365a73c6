/-!
# Dates and times in a TOML text

**Forms.** A date `1979-05-27`, a time `07:32:00` with perhaps a fraction of the second, or a date
and a time with `T`, `t` or one blank between them.  Only a time after a date can have an offset,
`Z`, `z` or a sign with hours and minutes.

**Ranges.** The month has the day, with a leap day by the rule of the Gregorian calendar; hours go
to 23, minutes to 59 and seconds to 60.
-/

namespace Datalog

section DateTime

namespace DateTime

/-- A number of two digits in a range, and what follows. -/
def twoDigits? (least most : Nat) : List Char → Option (Nat × List Char)
  | a :: b :: rest =>
      let value := 10 * (a.toNat - '0'.toNat) + (b.toNat - '0'.toNat)
      if a.isDigit && b.isDigit && least ≤ value && value ≤ most then
        some (value, rest)
      else
        none
  | _ => none

/-- What follows a given character. -/
def expect? (c : Char) : List Char → Option (List Char)
  | [] => none
  | found :: rest => if found = c then some rest else none

/-- Whether a year has a leap day. -/
def isLeapYear (year : Nat) : Bool :=
  year % 4 == 0 && (year % 100 != 0 || year % 400 == 0)

/-- The number of days of a month. -/
def daysInMonth (year month : Nat) : Nat :=
  if month = 2 then
    if isLeapYear year then 29 else 28
  else if [4, 6, 9, 11].contains month then
    30
  else
    31

/-- What follows a date. -/
def afterDate? (cs : List Char) : Option (List Char) := do
  let (century, cs) ← twoDigits? 0 99 cs
  let (year, cs) ← twoDigits? 0 99 cs
  let cs ← expect? '-' cs
  let (month, cs) ← twoDigits? 1 12 cs
  let cs ← expect? '-' cs
  let (_, cs) ← twoDigits? 1 (daysInMonth (100 * century + year) month) cs
  return cs

/-- What follows the fraction of a second, if there is one. -/
def afterFraction? (cs : List Char) : Option (List Char) :=
  match cs with
  | '.' :: rest =>
      if (rest.takeWhile Char.isDigit).isEmpty then none else some (rest.dropWhile Char.isDigit)
  | _ => some cs

/-- What follows a time. -/
def afterTime? (cs : List Char) : Option (List Char) := do
  let (_, cs) ← twoDigits? 0 23 cs
  let cs ← expect? ':' cs
  let (_, cs) ← twoDigits? 0 59 cs
  let cs ← expect? ':' cs
  let (_, cs) ← twoDigits? 0 60 cs
  afterFraction? cs

/-- What follows the hours and minutes of an offset. -/
def afterHours? (cs : List Char) : Option (List Char) := do
  let (_, cs) ← twoDigits? 0 23 cs
  let cs ← expect? ':' cs
  let (_, cs) ← twoDigits? 0 59 cs
  return cs

/-- Whether characters are nothing or an offset. -/
def isOffset : List Char → Bool
  | [] => true
  | ['Z'] | ['z'] => true
  | sign :: rest => (sign == '+' || sign == '-') && afterHours? rest == some []

/-- Whether characters are a time alone. -/
def isTime (cs : List Char) : Bool :=
  afterTime? cs == some []

/-- Whether characters are a time with perhaps an offset. -/
def isOffsetTime (cs : List Char) : Bool :=
  match afterTime? cs with
  | none => false
  | some rest => isOffset rest

/-- Whether characters are a date alone. -/
def isDate (cs : List Char) : Bool :=
  afterDate? cs == some []

/-- Whether characters are a date, a time, or both. -/
def holds (cs : List Char) : Bool :=
  match afterDate? cs with
  | none => isTime cs
  | some [] => true
  | some (c :: rest) => (c == 'T' || c == 't' || c == ' ') && isOffsetTime rest

/-- Whether a time starts, so that a date with one blank before it goes on. -/
def startsTime : List Char → Bool
  | a :: b :: ':' :: _ => a.isDigit && b.isDigit
  | _ => false

end DateTime

end DateTime

end Datalog
