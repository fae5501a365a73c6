import Datalog.Source.Layout

/-!
# Tokens of a source text

**Tokens.** Words, quoted strings and punctuation.

* A word is a letter with all letters and digits after it.
* A string runs from an apostrophe to the first later one that is not doubled.  It keeps its
  quotes, and doubled apostrophes stay doubled.
* `:-` is one token; a colon alone is another.

**Algorithm.** Layout is skipped before each token, and each token is as long as possible.  A text
with a character that starts no token has no tokens at all.
-/

namespace Datalog

section Token

/-- A word of the language. -/
inductive Token where
  | word (text : String)
  | quoted (text : String)
  | opening
  | closing
  | comma
  | dot
  | question
  | colon
  | arrow
  | plus
  | star
deriving DecidableEq, Repr

namespace Token

/-- The rest of a string after its first apostrophe, with the last one, and what follows it. -/
def quotedTail? : List Char → Option (List Char × List Char)
  | [] => none
  | '\'' :: '\'' :: rest =>
      (quotedTail? rest).map fun (body, after) => ('\'' :: '\'' :: body, after)
  | '\'' :: rest => some (['\''], rest)
  | c :: rest => (quotedTail? rest).map fun (body, after) => (c :: body, after)

theorem length_quotedTail?_le {cs body after : List Char}
    (h : quotedTail? cs = some (body, after)) :
    after.length ≤ cs.length := by
  fun_induction quotedTail? cs generalizing body after with
  | case1 => simp at h
  | case2 rest ih =>
      obtain ⟨⟨body', after'⟩, htail, heq⟩ := Option.map_eq_some_iff.1 h
      cases heq
      have hle := ih htail
      simp only [List.length_cons]
      omega
  | case3 rest =>
      cases h
      simp only [List.length_cons]
      omega
  | case4 c rest _ _ ih =>
      obtain ⟨⟨body', after'⟩, htail, heq⟩ := Option.map_eq_some_iff.1 h
      cases heq
      have hle := ih htail
      simp only [List.length_cons]
      omega

/-- The punctuation token that a character is on its own. -/
def ofPunctuation? : Char → Option Token
  | '(' => some opening
  | ')' => some closing
  | ',' => some comma
  | '.' => some dot
  | '?' => some question
  | '+' => some plus
  | '*' => some star
  | _ => none

/-- The token that starts at a character, and what follows it. -/
def read? (c : Char) (rest : List Char) : Option (Token × List Char) :=
  if c = '\'' then
    (quotedTail? rest).map fun (body, after) => (quoted (String.ofList (c :: body)), after)
  else if c = ':' then
    match rest with
    | '-' :: after => some (arrow, after)
    | _ => some (colon, rest)
  else if c.isAlpha then
    some (word (String.ofList (c :: rest.takeWhile Char.isAlphanum)),
      rest.dropWhile Char.isAlphanum)
  else
    (ofPunctuation? c).map fun token => (token, rest)

theorem length_read?_le {c : Char} {rest after : List Char} {token : Token}
    (h : read? c rest = some (token, after)) :
    after.length ≤ rest.length := by
  rw [read?.eq_def] at h
  split at h
  · obtain ⟨⟨body, after'⟩, htail, heq⟩ := Option.map_eq_some_iff.1 h
    cases heq
    exact length_quotedTail?_le htail
  · split at h
    · split at h
      · cases h
        exact Nat.le_succ _
      · cases h
        exact Nat.le_refl _
    · split at h
      · cases h
        exact (List.dropWhile_sublist _).length_le
      · obtain ⟨_, _, heq⟩ := Option.map_eq_some_iff.1 h
        cases heq
        exact Nat.le_refl _

/-- All tokens of a text, if it consists of tokens and layout only. -/
def scan? (cs : List Char) : Option (List Token) :=
  match _hskip : Layout.skip cs with
  | [] => some []
  | c :: rest =>
      match _hread : read? c rest with
      | none => none
      | some (token, after) => (scan? after).map (token :: ·)
termination_by cs.length
decreasing_by
  have hle := length_read?_le _hread
  have hskip := Layout.length_skip_le cs
  rw [_hskip, List.length_cons] at hskip
  omega

end Token

end Token

end Datalog
