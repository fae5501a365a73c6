/-!
# Escapes in quoted texts

**Rule.** A backslash starts an escape: a letter for a control character, the quote or the
backslash itself, or `u` and four or `U` and eight hexadecimal digits for the character with that
code.
-/

namespace Datalog

section Escape

namespace Escape

/-- The value of a hexadecimal digit. -/
def hexDigit? (c : Char) : Option Nat :=
  if c.isDigit then
    some (c.toNat - '0'.toNat)
  else if 'a' ≤ c && c ≤ 'f' then
    some (c.toNat - 'a'.toNat + 10)
  else if 'A' ≤ c && c ≤ 'F' then
    some (c.toNat - 'A'.toNat + 10)
  else
    none

/-- The number that hexadecimal digits write, continuing from a number. -/
def hexValue? (number : Nat) : List Char → Option Nat
  | [] => some number
  | c :: rest =>
      match hexDigit? c with
      | none => none
      | some digit => hexValue? (16 * number + digit) rest

/-- The character with a hexadecimal code. -/
def ofCode? (digits : List Char) : Option Char :=
  match hexValue? 0 digits with
  | none => none
  | some code => if code.isValidChar then some (Char.ofNat code) else none

/-- The character that a letter after a backslash stands for. -/
def ofLetter? : Char → Option Char
  | 'b' => some '\x08'
  | 't' => some '\t'
  | 'n' => some '\n'
  | 'f' => some '\x0c'
  | 'r' => some '\r'
  | '"' => some '"'
  | '\\' => some '\\'
  | _ => none

/-- Whether a character may stand for itself in a quoted text on one line. -/
def isPlain (c : Char) : Bool :=
  c == '\t' || (' ' ≤ c && c != '\x7f')

/-- Puts a character before what is read of a text. -/
def withFirst (c : Option Char) (tail : Option (List Char × List Char)) :
    Option (List Char × List Char) :=
  match c, tail with
  | some c, some (body, after) => some (c :: body, after)
  | _, _ => none

theorem withFirst_eq_some
    {c : Option Char} {tail : Option (List Char × List Char)} {body after : List Char}
    (h : withFirst c tail = some (body, after)) :
    ∃ body', tail = some (body', after) := by
  cases c with
  | none => simp [withFirst] at h
  | some c =>
      cases tail with
      | none => simp [withFirst] at h
      | some pair =>
          simp only [withFirst, Option.some.injEq, Prod.mk.injEq] at h
          exact ⟨pair.1, by rw [← h.2]⟩

/-- A text with escapes on one line, from after its opening quote: what it says, and what follows
its closing quote. -/
def quotedBody? : List Char → Option (List Char × List Char)
  | [] => none
  | '"' :: rest => some ([], rest)
  | '\\' :: 'u' :: a :: b :: c :: d :: rest => withFirst (ofCode? [a, b, c, d]) (quotedBody? rest)
  | '\\' :: 'U' :: a :: b :: c :: d :: e :: f :: g :: h :: rest =>
      withFirst (ofCode? [a, b, c, d, e, f, g, h]) (quotedBody? rest)
  | '\\' :: c :: rest => withFirst (ofLetter? c) (quotedBody? rest)
  | c :: rest => withFirst (if isPlain c then some c else none) (quotedBody? rest)

theorem length_quotedBody?_le {cs body after : List Char}
    (h : quotedBody? cs = some (body, after)) :
    after.length ≤ cs.length := by
  fun_induction quotedBody? cs generalizing body after <;>
    simp only [List.length_cons, List.length_nil] <;>
    grind [withFirst_eq_some]

end Escape

end Escape

end Datalog
