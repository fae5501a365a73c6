import Datalog.Text.CodePoints

/-!
# Blank characters

**Table.** The code points with the Unicode property `White_Space`.

**Operations.** Whether a text is blank, and the text without the blanks at its ends.
-/

namespace Datalog

section Blank

namespace Blank

/-- The ranges of code points, ascending. -/
def ranges : CodePoints :=
  [(0x9, 0xd), (0x20, 0x20), (0x85, 0x85), (0xa0, 0xa0), (0x1680, 0x1680), (0x2000, 0x200a),
    (0x2028, 0x2029), (0x202f, 0x202f), (0x205f, 0x205f), (0x3000, 0x3000)]

/-- Whether a character is blank. -/
def contains (c : Char) : Bool :=
  ranges.contains c

/-- The characters without the blanks at both ends. -/
def trimList (cs : List Char) : List Char :=
  ((cs.dropWhile contains).reverse.dropWhile contains).reverse

/-- The text without the blanks at both ends. -/
def trim (text : String) : String :=
  String.ofList (trimList text.toList)

end Blank

end Blank

end Datalog
