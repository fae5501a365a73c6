import Datalog.Decimal.Digits
import Datalog.Reader
import Datalog.Settings.Keyed
import Datalog.Settings.Tree
import Datalog.Text.Blank
import Datalog.Text.Bytes
import Datalog.Text.Escape

/-!
# Values of environment variables

**Rule.** `true`, `false` and numbers are read as such; `[…]` is a list, `{key=…}` a table, `"…"` a
text with escapes and `'c'` a character.  Everything else is a text without the blanks at its
ends.  A value of which only a beginning has one of these forms is a text as it stands.  Of the
entries of a table with one key, the last one counts.

**Escapes.** A quoted text without escapes is whole.  One with escapes keeps, of the characters
before its first escape, only as many bytes as these are characters.  Where that cuts the text
inside a character, there is no value.
-/

namespace Datalog

section EnvironmentValue

namespace EnvironmentValue

/-- Whether a character can stand before or after a value. -/
def isSpace (c : Char) : Bool :=
  c == ' ' || c == '\t' || c == '\n' || c == '\x0c' || c == '\r'

/-- Whether a character ends a plain value. -/
def isSeparator (c : Char) : Bool :=
  c == ',' || c == '\x7b' || c == '\x7d' || c == '[' || c == ']'

/-- Whether a character can stand in a key without quotes. -/
def isKey (c : Char) : Bool :=
  c.isAlphanum || c == '_' || c == '-'

section Numbers

/-- A number with a point: digits on at least one side of it, then perhaps an exponent. -/
def fraction? (cs : List Char) : Option Float :=
  let (negative, unsigned) := Digits.splitSign cs
  let whole := unsigned.takeWhile Char.isDigit
  match unsigned.dropWhile Char.isDigit with
  | '.' :: rest =>
      let places := rest.takeWhile Char.isDigit
      match Digits.natural? (whole ++ places), Digits.exponent? (rest.dropWhile Char.isDigit) with
      | some digits, some exponent => some (Binary.round negative digits (exponent - places.length))
      | _, _ => none
  | _ => none

/-- A plain value: a number of 64 bits if it is one, else a text. -/
def plain (cs : List Char) : SettingTree :=
  match fraction? cs, Digits.integer? cs with
  | some value, _ => .float value
  | none, some value =>
      if cs.head? ≠ some '-' ∧ value < UInt64.size then
        .unsigned value.toNat
      else if Int64.minValue.toInt ≤ value ∧ value ≤ Int64.maxValue.toInt then
        .signed value
      else
        .text (String.ofList cs)
  | none, none => .text (String.ofList cs)

end Numbers

section Values

/-- What can be left after reading a value, which may be empty. -/
abbrev Remaining (cs : List Char) : Type :=
  { rest : List Char // rest.length ≤ cs.length }

/-- Why characters do not start with a value. -/
inductive Fault where
  | noValue
  | cut
deriving DecidableEq, Repr

/-- Something at the start of characters, with what is left. -/
abbrev Reading (α : Type) (cs : List Char) : Type :=
  Except Fault (α × Remaining cs)

/-- What follows the spaces at the start. -/
def skipSpace (cs : List Char) : Remaining cs :=
  ⟨cs.dropWhile isSpace, (List.dropWhile_sublist _).length_le⟩

/-- Whether a quote closes the text; one directly after a backslash does not. -/
def isClosed : List Char → Bool
  | [] => false
  | '"' :: _ => true
  | '\\' :: _ :: rest => isClosed rest
  | _ :: rest => isClosed rest

/-- Whether a character neither starts an escape nor ends a quoted text. -/
def isUnescaped (c : Char) : Bool :=
  c != '\\' && c != '"'

/-- What is kept of the characters before the end of a quoted text or before its first escape. -/
def kept? (before rest : List Char) : Option (List Char) :=
  if rest.head? = some '\\' then
    (Bytes.splitAt? before.length before).map Prod.fst
  else
    some before

/-- A text with escapes, from after its opening quote. -/
def quoted (cs : List Char) : Reading (List Char) cs :=
  let before := cs.takeWhile isUnescaped
  if !isClosed cs || !before.all Escape.isPlain then
    .error .noValue
  else
    match kept? before (cs.dropWhile isUnescaped) with
    | none => .error .cut
    | some kept =>
        match h : Escape.quotedBody? (cs.dropWhile isUnescaped) with
        | none => .error .noValue
        | some (body, after) =>
            .ok (kept ++ body, ⟨after,
              Nat.le_trans (Escape.length_quotedBody?_le h) (List.dropWhile_sublist _).length_le⟩)

/-- The key of a table entry, with or without quotes. -/
def key (cs : List Char) : Reading (List Char) cs :=
  match cs with
  | '"' :: inner =>
      match quoted inner with
      | .error fault => .error fault
      | .ok (body, ⟨rest, h⟩) => .ok (body, ⟨rest, Nat.le_succ_of_le h⟩)
  | other =>
      if (other.takeWhile isKey).isEmpty then
        .error .noValue
      else
        .ok (other.takeWhile isKey, ⟨other.dropWhile isKey, (List.dropWhile_sublist _).length_le⟩)

/-- The key of a table entry with the equals sign after it, and spaces around both. -/
def keyEquals (cs : List Char) : Reading String cs :=
  let ⟨start, h₁⟩ := skipSpace cs
  match key start with
  | .error fault => .error fault
  | .ok (name, ⟨afterName, h₂⟩) =>
      match skipSpace afterName with
      | ⟨'=' :: rest, h₃⟩ =>
          .ok (String.ofList name, ⟨rest, by
            simp only [List.length_cons] at h₃
            omega⟩)
      | _ => .error .noValue

/-- Entries with each key once; the last entry of a key counts. -/
def lastEntries (entries : List (String × SettingTree)) : List (String × SettingTree) :=
  entries.foldl (fun entries (key, value) => Keyed.put key value entries) []

/-- A value that is no list and no table. -/
def scalar (cs : List Char) : Reading SettingTree cs :=
  match cs with
  | 't' :: 'r' :: 'u' :: 'e' :: rest =>
      .ok (.boolean true, ⟨rest, by simp only [List.length_cons]; omega⟩)
  | 'f' :: 'a' :: 'l' :: 's' :: 'e' :: rest =>
      .ok (.boolean false, ⟨rest, by simp only [List.length_cons]; omega⟩)
  | '"' :: inner =>
      match quoted inner with
      | .error fault => .error fault
      | .ok (body, ⟨rest, h⟩) =>
          .ok (.text (String.ofList body), ⟨rest, Nat.le_succ_of_le h⟩)
  | '\'' :: c :: '\'' :: rest =>
      .ok (.character c, ⟨rest, by simp only [List.length_cons]; omega⟩)
  | '\'' :: _ => .error .noValue
  | other =>
      .ok (plain (Blank.trimList (other.takeWhile fun c => !isSeparator c)),
        ⟨other.dropWhile fun c => !isSeparator c, (List.dropWhile_sublist _).length_le⟩)

mutual

/-- A value without spaces before it. -/
def value (cs : List Char) : Reading SettingTree cs :=
  match Reader.symbol '[' cs with
  | some (_, ⟨inner, h⟩) =>
      match items inner with
      | .error fault => .error fault
      | .ok (trees, ⟨rest, h'⟩) => .ok (.list trees, ⟨rest, Nat.le_trans h' (Nat.le_of_lt h)⟩)
  | none =>
      match Reader.symbol '\x7b' cs with
      | some (_, ⟨inner, h⟩) =>
          match entries inner with
          | .error fault => .error fault
          | .ok (trees, ⟨rest, h'⟩) =>
              .ok (.table (lastEntries trees),
                ⟨rest, Nat.le_trans h' (Nat.le_of_lt h)⟩)
      | none => scalar cs
termination_by (cs.length, 0)

/-- A value with the spaces around it. -/
def spacedValue (cs : List Char) : Reading SettingTree cs :=
  match skipSpace cs with
  | ⟨start, h⟩ =>
      match value start with
      | .error fault => .error fault
      | .ok (tree, ⟨rest, h'⟩) =>
          match skipSpace rest with
          | ⟨after, h''⟩ => .ok (tree, ⟨after, Nat.le_trans h'' (Nat.le_trans h' h)⟩)
termination_by (cs.length, 1)
decreasing_by
  rcases Nat.lt_or_ge start.length cs.length with hlt | hge
  · exact Prod.Lex.left _ _ hlt
  · rw [Nat.le_antisymm h hge]
    exact Prod.Lex.right _ Nat.zero_lt_one

/-- The values of a list up to its closing bracket. -/
def items (cs : List Char) : Reading (List SettingTree) cs :=
  match Reader.symbol ']' cs with
  | some (_, ⟨rest, h⟩) => .ok ([], ⟨rest, Nat.le_of_lt h⟩)
  | none =>
      match spacedValue cs with
      | .error fault => .error fault
      | .ok (tree, ⟨rest, h⟩) =>
          match Reader.symbol ',' rest with
          | some (_, ⟨next, h'⟩) =>
              match items next with
              | .error fault => .error fault
              | .ok (trees, ⟨after, h''⟩) => .ok (tree :: trees, ⟨after, by omega⟩)
          | none =>
              match Reader.symbol ']' rest with
              | some (_, ⟨after, h'⟩) => .ok ([tree], ⟨after, by omega⟩)
              | none => .error .noValue
termination_by (cs.length, 2)
decreasing_by
  · exact Prod.Lex.right _ (Nat.lt_succ_self _)
  · exact Prod.Lex.left _ _ (Nat.lt_of_lt_of_le h' h)

/-- The entries of a table up to its closing brace. -/
def entries (cs : List Char) : Reading (List (String × SettingTree)) cs :=
  match Reader.symbol '\x7d' cs with
  | some (_, ⟨rest, h⟩) => .ok ([], ⟨rest, Nat.le_of_lt h⟩)
  | none =>
      match keyEquals cs with
      | .error fault => .error fault
      | .ok (name, ⟨start, h₀⟩) =>
          match spacedValue start with
          | .error fault => .error fault
          | .ok (tree, ⟨rest, h⟩) =>
              match Reader.symbol ',' rest with
              | some (_, ⟨next, h'⟩) =>
                  match entries next with
                  | .error fault => .error fault
                  | .ok (trees, ⟨after, h''⟩) => .ok ((name, tree) :: trees, ⟨after, by omega⟩)
              | none =>
                  match Reader.symbol '\x7d' rest with
                  | some (_, ⟨after, h'⟩) => .ok ([(name, tree)], ⟨after, by omega⟩)
                  | none => .error .noValue
termination_by (cs.length, 2)
decreasing_by
  · rcases Nat.lt_or_ge start.length cs.length with hlt | hge
    · exact Prod.Lex.left _ _ hlt
    · rw [Nat.le_antisymm h₀ hge]
      exact Prod.Lex.right _ (Nat.lt_succ_self _)
  · exact Prod.Lex.left _ _ (Nat.lt_of_lt_of_le h' (Nat.le_trans h h₀))

end

/-- The tree that the text of a variable stands for, unless the text is cut to find it. -/
def ofText? (text : String) : Option SettingTree :=
  match spacedValue text.toList with
  | .ok (tree, ⟨[], _⟩) => some tree
  | .error .cut => none
  | _ => some (.text text)

end Values

end EnvironmentValue

end EnvironmentValue

end Datalog
