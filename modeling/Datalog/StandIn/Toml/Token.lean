import Datalog.Text.Escape
import Datalog.StandIn.Toml.DateTime

/-!
# Tokens of a TOML text

**Tokens.** Runs of the characters of bare keys, numbers, dates and times, strings, brackets and
punctuation, and line ends.  A date and a time with one blank between them are one run.  A square
bracket knows whether the same bracket stands directly before it: that tells the head of a table
list from other brackets.

**Algorithm.** Blanks, tabs and comments are skipped.  A text with a character that starts no
token has no tokens at all.
-/

namespace Datalog

section TomlToken

/-- A piece of a TOML text. -/
inductive TomlToken where
  | bare (text : String)
  | quoted (text : String)
  | block (text : String)
  | opening (adjacent : Bool)
  | closing (adjacent : Bool)
  | openingBrace
  | closingBrace
  | equals
  | comma
  | lineEnd
deriving DecidableEq, Repr

namespace TomlToken

/-- Whether a character belongs to bare keys, numbers and the like. -/
def isBare (c : Char) : Bool :=
  c.isAlphanum || c == '_' || c == '-' || c == '+' || c == '.' || c == ':'

/-- A run of bare characters after a first one, and what follows. -/
def bareRun (first : Char) (cs : List Char) : List Char × List Char :=
  let run := first :: cs.takeWhile isBare
  match cs.dropWhile isBare with
  | ' ' :: after =>
      if DateTime.isDate run && DateTime.startsTime after then
        (run ++ ' ' :: after.takeWhile isBare, after.dropWhile isBare)
      else
        (run, ' ' :: after)
  | after => (run, after)

/-- A string without escapes on one line, from after its opening apostrophe. -/
def literal? : List Char → Option (List Char × List Char)
  | [] => none
  | '\'' :: rest => some ([], rest)
  | c :: rest => Escape.withFirst (if Escape.isPlain c then some c else none) (literal? rest)

/-- Whether only blanks come before the next line end. -/
def endsLine (cs : List Char) : Bool :=
  match cs.dropWhile fun c => c == ' ' || c == '\t' with
  | '\n' :: _ => true
  | '\r' :: '\n' :: _ => true
  | _ => false

/-- A string with escapes over several lines, from after its opening quotes.  After a backslash
at the end of a line, `skipping` holds and blanks and line ends are left out. -/
def basicBlock? (skipping : Bool) : List Char → Option (List Char × List Char)
  | [] => none
  | '"' :: '"' :: '"' :: '"' :: '"' :: rest => some (['"', '"'], rest)
  | '"' :: '"' :: '"' :: '"' :: rest => some (['"'], rest)
  | '"' :: '"' :: '"' :: rest => some ([], rest)
  | '\\' :: 'u' :: a :: b :: c :: d :: rest =>
      Escape.withFirst (Escape.ofCode? [a, b, c, d]) (basicBlock? false rest)
  | '\\' :: 'U' :: a :: b :: c :: d :: e :: f :: g :: h :: rest =>
      Escape.withFirst (Escape.ofCode? [a, b, c, d, e, f, g, h]) (basicBlock? false rest)
  | '\\' :: c :: rest =>
      if endsLine (c :: rest) then
        basicBlock? true rest
      else
        Escape.withFirst (Escape.ofLetter? c) (basicBlock? false rest)
  | '\r' :: '\n' :: rest =>
      if skipping then
        basicBlock? true rest
      else
        Escape.withFirst (some '\n') (basicBlock? false rest)
  | c :: rest =>
      if skipping && (c == ' ' || c == '\t' || c == '\n') then
        basicBlock? true rest
      else
        Escape.withFirst (if Escape.isPlain c || c == '\n' then some c else none)
          (basicBlock? false rest)

/-- A string without escapes over several lines, from after its opening apostrophes. -/
def literalBlock? : List Char → Option (List Char × List Char)
  | [] => none
  | '\'' :: '\'' :: '\'' :: '\'' :: '\'' :: rest => some (['\'', '\''], rest)
  | '\'' :: '\'' :: '\'' :: '\'' :: rest => some (['\''], rest)
  | '\'' :: '\'' :: '\'' :: rest => some ([], rest)
  | '\r' :: '\n' :: rest => Escape.withFirst (some '\n') (literalBlock? rest)
  | c :: rest =>
      Escape.withFirst (if Escape.isPlain c || c == '\n' then some c else none) (literalBlock? rest)

/-- A text block starts after a line end that directly follows its opening quotes. -/
def afterLineEnd : List Char → List Char
  | '\n' :: rest => rest
  | '\r' :: '\n' :: rest => rest
  | cs => cs

/-- A token made of what a string says. -/
def ofBody (make : String → TomlToken) (read : Option (List Char × List Char)) :
    Option (Option TomlToken × List Char) :=
  read.map fun (body, after) => (some (make (String.ofList body)), after)

/-- The string that starts with a double quote. -/
def doubleQuoted? (rest : List Char) : Option (Option TomlToken × List Char) :=
  match rest with
  | '"' :: '"' :: inner => ofBody block (basicBlock? false (afterLineEnd inner))
  | _ => ofBody quoted (Escape.quotedBody? rest)

/-- The string that starts with an apostrophe. -/
def singleQuoted? (rest : List Char) : Option (Option TomlToken × List Char) :=
  match rest with
  | '\'' :: '\'' :: inner => ofBody block (literalBlock? (afterLineEnd inner))
  | _ => ofBody quoted (literal? rest)

/-- The token that a character is on its own; `previous` is the character before it. -/
def ofSymbol? (previous c : Char) : Option TomlToken :=
  match c with
  | '\n' => some lineEnd
  | '=' => some equals
  | ',' => some comma
  | '[' => some (opening (previous == '['))
  | ']' => some (closing (previous == ']'))
  | '\x7b' => some openingBrace
  | '\x7d' => some closingBrace
  | _ => none

/-- The token that starts at a character, if it is no layout, and what follows.  A carriage
return counts only before a line feed, and then as nothing. -/
def read? (previous c : Char) (rest : List Char) : Option (Option TomlToken × List Char) :=
  if c = ' ' ∨ c = '\t' then
    some (none, rest)
  else if c = '\r' then
    if rest.head? = some '\n' then some (none, rest) else none
  else if c = '#' then
    some (none, rest.dropWhile Escape.isPlain)
  else if c = '"' then
    doubleQuoted? rest
  else if c = '\'' then
    singleQuoted? rest
  else if isBare c then
    some (some (bare (String.ofList (bareRun c rest).1)), (bareRun c rest).2)
  else
    (ofSymbol? previous c).map fun token => (some token, rest)

theorem length_literal?_le {cs body after : List Char} (h : literal? cs = some (body, after)) :
    after.length ≤ cs.length := by
  fun_induction literal? cs generalizing body after <;>
    simp only [List.length_cons, List.length_nil] <;>
    grind [Escape.withFirst_eq_some]

theorem length_basicBlock?_le {skipping : Bool} {cs body after : List Char}
    (h : basicBlock? skipping cs = some (body, after)) :
    after.length ≤ cs.length := by
  fun_induction basicBlock? skipping cs generalizing body after <;>
    simp only [List.length_cons, List.length_nil] <;>
    grind [Escape.withFirst_eq_some]

theorem length_literalBlock?_le {cs body after : List Char}
    (h : literalBlock? cs = some (body, after)) :
    after.length ≤ cs.length := by
  fun_induction literalBlock? cs generalizing body after <;>
    simp only [List.length_cons, List.length_nil] <;>
    grind [Escape.withFirst_eq_some]

theorem length_bareRun_le (first : Char) (cs : List Char) :
    (bareRun first cs).2.length ≤ cs.length := by
  have h := (List.dropWhile_sublist (l := cs) isBare).length_le
  rw [bareRun]
  split
  · rename_i after heq
    have h' := (List.dropWhile_sublist (l := after) isBare).length_le
    rw [heq, List.length_cons] at h
    split
    · exact Nat.le_trans h' (Nat.le_of_succ_le h)
    · exact h
  · exact h

theorem length_afterLineEnd_le (cs : List Char) : (afterLineEnd cs).length ≤ cs.length := by
  fun_cases afterLineEnd cs <;> grind

theorem length_ofBody_le
    {make : String → TomlToken} {read : Option (List Char × List Char)}
    {token : Option TomlToken} {after : List Char} {bound : Nat}
    (h : ofBody make read = some (token, after))
    (hread : ∀ body rest, read = some (body, rest) → rest.length ≤ bound) :
    after.length ≤ bound := by
  obtain ⟨⟨body, rest⟩, hsome, heq⟩ := Option.map_eq_some_iff.1 h
  cases heq
  exact hread body _ hsome

theorem length_doubleQuoted?_le
    {rest after : List Char} {token : Option TomlToken}
    (h : doubleQuoted? rest = some (token, after)) :
    after.length ≤ rest.length := by
  rw [doubleQuoted?.eq_def] at h
  split at h
  · rename_i inner
    refine length_ofBody_le h fun body rest hblock => ?_
    have h₁ := length_basicBlock?_le hblock
    have h₂ := length_afterLineEnd_le inner
    simp only [List.length_cons]
    omega
  · exact length_ofBody_le h fun _ _ => Escape.length_quotedBody?_le

theorem length_singleQuoted?_le
    {rest after : List Char} {token : Option TomlToken}
    (h : singleQuoted? rest = some (token, after)) :
    after.length ≤ rest.length := by
  rw [singleQuoted?.eq_def] at h
  split at h
  · rename_i inner
    refine length_ofBody_le h fun body rest hblock => ?_
    have h₁ := length_literalBlock?_le hblock
    have h₂ := length_afterLineEnd_le inner
    simp only [List.length_cons]
    omega
  · exact length_ofBody_le h fun _ _ => length_literal?_le

theorem length_read?_le
    {previous c : Char} {rest after : List Char} {token : Option TomlToken}
    (h : read? previous c rest = some (token, after)) :
    after.length ≤ rest.length := by
  rw [read?] at h
  split at h
  · cases h
    exact Nat.le_refl _
  · split at h
    · split at h
      · cases h
        exact Nat.le_refl _
      · cases h
    · split at h
      · cases h
        exact (List.dropWhile_sublist _).length_le
      · split at h
        · exact length_doubleQuoted?_le h
        · split at h
          · exact length_singleQuoted?_le h
          · split at h
            · cases h
              exact length_bareRun_le c rest
            · obtain ⟨_, _, heq⟩ := Option.map_eq_some_iff.1 h
              cases heq
              exact Nat.le_refl _

/-- All tokens of a text, if it consists of tokens and layout only.  `previous` is the character
before it. -/
def scan? (previous : Char) : List Char → Option (List TomlToken)
  | [] => some []
  | c :: rest =>
      match _h : read? previous c rest with
      | none => none
      | some (none, after) => scan? c after
      | some (some token, after) => (scan? c after).map (token :: ·)
termination_by cs => cs.length
decreasing_by
  · exact Nat.lt_succ_of_le (length_read?_le _h)
  · exact Nat.lt_succ_of_le (length_read?_le _h)

end TomlToken

end TomlToken

end Datalog
