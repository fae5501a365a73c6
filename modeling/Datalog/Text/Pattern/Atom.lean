import Datalog.Reader
import Datalog.Text.Blank
import Datalog.Text.Escape

/-!
# Parts of patterns

**Flags.** A pattern can ignore the case of letters, be for bytes instead of characters, or be
verbose: then blanks and comments from a `#` to the end of the line are gaps and stand for nothing.

**Atoms.** An atom is a literal character, written as itself, after a backslash or by its code, a
named class such as the digits, any character, or an edge of the text, of a line or of a word.

**Support.** No tables of characters are at hand, so that case cannot be ignored and classes cannot
be named except in patterns for bytes.  Such a pattern has to match whole characters: it can name no
byte outside ASCII and no class by what it does not hold.  Edges of words are those of bytes.
-/

namespace Datalog

section PatternAtom

/-- The flags of a pattern that its validity hangs on. -/
structure PatternFlags where
  ignoreCase : Bool := false
  unicode : Bool := true
  verbose : Bool := false
deriving DecidableEq, Repr

namespace PatternFlags

/-- The letters of all flags. -/
def letters : List Char :=
  ['i', 'm', 's', 'U', 'u', 'R', 'x']

/-- Whether each entry occurs once. -/
def areDistinct : List Char → Bool
  | [] => true
  | c :: rest => !rest.contains c && areDistinct rest

/-- Whether a flag is set after a change, given whether it was set before. -/
def isSet (change : List Char) (letter : Char) (before : Bool) : Bool :=
  (change.takeWhile (· != '-')).contains letter ||
    (before && !(change.dropWhile (· != '-')).contains letter)

/-- The flags after a change: letters of flags to set, then perhaps a hyphen and letters of flags to
clear. -/
def changed? (flags : PatternFlags) (change : List Char) : Option PatternFlags :=
  if areDistinct change && change.all (fun c => c == '-' || letters.contains c) &&
      change.getLast? != some '-' then
    some ⟨isSet change 'i' flags.ignoreCase, isSet change 'u' flags.unicode,
      isSet change 'x' flags.verbose⟩
  else
    none

/-- Whether literal characters are supported. -/
def literals (flags : PatternFlags) : Bool :=
  !(flags.unicode && flags.ignoreCase)

end PatternFlags

/-- A part of a pattern that has no parts. -/
inductive PatternAtom where
  | literal (c : Char)
  | coded (c : Char)
  | namedClass (negated : Bool)
  | anyCharacter
  | edge
  | wordEdge
deriving DecidableEq, Repr

namespace PatternAtom

section Support

/-- Whether the atom is supported by itself.  A code of two digits names a byte in patterns for
bytes. -/
def isSupported (flags : PatternFlags) : PatternAtom → Bool
  | literal _ => flags.literals
  | coded c => flags.literals && (flags.unicode || c.toNat < 0x80)
  | namedClass negated => !flags.unicode && !negated
  | anyCharacter => flags.unicode
  | edge => true
  | wordEdge => !flags.unicode

/-- The character that the atom stands for in a class. -/
def character? : PatternAtom → Option Char
  | literal c | coded c => some c
  | _ => none

/-- Whether characters are supported in a class. -/
def areMembers (flags : PatternFlags) (cs : List Char) : Bool :=
  flags.literals && (flags.unicode || cs.all fun c => c.toNat < 0x80)

end Support

section Reading

/-- A gap: a blank, or a comment up to the end of its line. -/
def gap : Reader Char Unit
  | [] => none
  | c :: rest =>
      if Blank.contains c then
        some ((), ⟨rest, Nat.lt_succ_self _⟩)
      else if c = '#' then
        some ((), ⟨(rest.dropWhile (· != '\n')).tail, by
          have h := (List.dropWhile_sublist (l := rest) (· != '\n')).length_le
          simp only [List.length_tail, List.length_cons]
          omega⟩)
      else
        none

/-- Reads something with the gaps after it, if there can be gaps. -/
def spaced {α : Type} (flags : PatternFlags) (p : Reader Char α) : Reader Char α :=
  if flags.verbose then Reader.map Prod.fst (Reader.thenMany p gap) else p

/-- The atom that a character after a backslash makes. -/
def ofEscaped? (c : Char) : Option PatternAtom :=
  match c with
  | 'a' => some (literal '\x07')
  | 'f' => some (literal '\x0c')
  | 'n' => some (literal '\n')
  | 'r' => some (literal '\r')
  | 't' => some (literal '\t')
  | 'v' => some (literal '\x0b')
  | 'd' | 's' | 'w' => some (namedClass false)
  | 'D' | 'S' | 'W' => some (namedClass true)
  | 'A' | 'z' => some edge
  | 'b' | 'B' | '<' | '>' => some wordEdge
  | _ => if c.toNat < 0x80 && !c.isAlphanum then some (literal c) else none

/-- Hexadecimal digits of a number, with a first thing before them. -/
def digits {α : Type} (flags : PatternFlags) (first : Reader Char α) :
    (count : Nat) → Reader Char (List Char)
  | 0 => Reader.map (fun _ => []) first
  | count + 1 =>
      Reader.map (fun (found, digit) => found ++ [digit])
        (Reader.andThen (digits flags first count)
          (spaced flags (Reader.satisfying fun c => (Escape.hexDigit? c).isSome)))

/-- The character whose code follows a letter. -/
def ofCode (flags : PatternFlags) (letter : Char) (count : Nat) : Reader Char Char :=
  Reader.filterMap Escape.ofCode? (digits flags (spaced flags (Reader.symbol letter)) count)

/-- An atom that starts with a backslash. -/
def escaped (flags : PatternFlags) : Reader Char PatternAtom :=
  Reader.after (Reader.symbol '\\')
    (Reader.orElse (Reader.map coded (ofCode flags 'x' 2))
      (Reader.orElse (Reader.map literal (ofCode flags 'u' 4))
        (Reader.orElse (Reader.map literal (ofCode flags 'U' 8))
          (Reader.filterMap ofEscaped? (Reader.satisfying fun _ => true)))))

/-- The characters that do not stand for themselves in a pattern. -/
def specials : List Char :=
  ['\\', '(', ')', '[', '|', '?', '*', '+', '\x7b']

/-- The atom that a character makes by itself. -/
def ofPlain (c : Char) : PatternAtom :=
  match c with
  | '.' => anyCharacter
  | '^' | '$' => edge
  | _ => literal c

/-- An atom of a pattern. -/
def reader (flags : PatternFlags) : Reader Char PatternAtom :=
  Reader.orElse (escaped flags)
    (Reader.map ofPlain (Reader.satisfying fun c => !specials.contains c))

/-- An atom of a class, if it starts with none of some characters. -/
def memberReader (flags : PatternFlags) (excluded : List Char) : Reader Char PatternAtom :=
  Reader.orElse (escaped flags)
    (Reader.map literal (Reader.satisfying fun c => c != '\\' && !excluded.contains c))

end Reading

end PatternAtom

end PatternAtom

end Datalog
