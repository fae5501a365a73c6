/-!
# Texts by their bytes

**Measure.** The size of a text is the number of its bytes in UTF-8.  A place in a text is the size
of what is before it; a number that lies inside a character is no place.

**Operations.** Splitting a text at a place, and taking out what is between two places.
-/

namespace Datalog

section Bytes

namespace Bytes

/-- The number of bytes of a text. -/
def size : List Char → Nat
  | [] => 0
  | c :: rest => c.utf8Size + size rest

/-- What is before and after a place; a shorter text is all before it. -/
def splitAt? : (place : Nat) → List Char → Option (List Char × List Char)
  | 0, cs => some ([], cs)
  | _, [] => some ([], [])
  | place, c :: rest =>
      if c.utf8Size ≤ place then
        (splitAt? (place - c.utf8Size) rest).map fun (before, after) => (c :: before, after)
      else
        none

/-- What is between two places. -/
def slice? (first last : Nat) (cs : List Char) : Option (List Char) :=
  match splitAt? last cs with
  | none => none
  | some (before, _) => (splitAt? first before).map Prod.snd

end Bytes

end Bytes

end Datalog
