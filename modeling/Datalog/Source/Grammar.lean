import Datalog.Program
import Datalog.Reader
import Datalog.Source.Parameter
import Datalog.Source.Token

/-!
# The grammar of programs and queries

**Input.** A source text.

**Grammar.** A program is four sections in a fixed order, each a keyword, a colon and its entries:
one or more schemes, any number of facts and of rules, one or more queries.

* scheme: `Name(column,…)`, with identifiers
* fact: `Name('value',…).`, with strings
* rule: `Name(variable,…) :- Predicate,… .`, with identifiers in the head
* query: `Name(parameter,…)?`

An identifier is a word other than the four keywords.  A parameter is a string, an identifier or
`(parameter operator parameter)`.

**Result.** The program, or the fact that the text is not one.
-/

namespace Datalog

section Grammar

namespace Grammar

/-- The words that head the sections. -/
def keywords : List String :=
  ["Schemes", "Facts", "Rules", "Queries"]

/-- A word that is no keyword. -/
def identifier : Reader Token String
  | .word text :: rest =>
      if keywords.contains text then
        none
      else
        some (text, ⟨rest, Nat.lt_succ_self _⟩)
  | _ => none

/-- A quoted string. -/
def quoted : Reader Token String
  | .quoted text :: rest => some (text, ⟨rest, Nat.lt_succ_self _⟩)
  | _ => none

/-- An operator between two parameters. -/
def operator : Reader Token Operator
  | .plus :: rest => some (.plus, ⟨rest, Nat.lt_succ_self _⟩)
  | .star :: rest => some (.times, ⟨rest, Nat.lt_succ_self _⟩)
  | _ => none

/-- A parameter with all parameters inside it. -/
def parameter (tokens : List Token) : Option (Parameter × Rest tokens) :=
  match tokens with
  | .quoted text :: rest => some (.quoted text, ⟨rest, Nat.lt_succ_self _⟩)
  | .word text :: rest =>
      if keywords.contains text then
        none
      else
        some (.identifier text, ⟨rest, Nat.lt_succ_self _⟩)
  | .opening :: rest =>
      match parameter rest with
      | none => none
      | some (left, ⟨rest₁, h₁⟩) =>
          match operator rest₁ with
          | none => none
          | some (op, ⟨rest₂, h₂⟩) =>
              match parameter rest₂ with
              | none => none
              | some (right, ⟨.closing :: rest₃, h₃⟩) =>
                  some (.operation left op right, ⟨rest₃, by
                    simp only [List.length_cons] at h₃ ⊢
                    omega⟩)
              | some _ => none
  | _ => none
termination_by tokens.length
decreasing_by
  · exact Nat.lt_succ_self _
  · simp only [List.length_cons]
    omega

/-- A name applied to one or more terms. -/
def applied (term : Reader Token String) : Reader Token Predicate :=
  Reader.map (fun (name, terms) => ⟨name, terms⟩)
    (Reader.andThen identifier
      (Reader.before
        (Reader.after (Reader.symbol .opening) (Reader.separated (Reader.symbol .comma) term))
        (Reader.symbol .closing)))

/-- A relation name with its columns. -/
def scheme : Reader Token Predicate :=
  applied identifier

/-- A relation name with the values of a row. -/
def fact : Reader Token Predicate :=
  Reader.before (applied quoted) (Reader.symbol .dot)

/-- A relation name with parameters. -/
def predicate : Reader Token Predicate :=
  applied (Reader.map Parameter.term parameter)

/-- A head and the predicates of the body. -/
def rule : Reader Token Rule :=
  Reader.map (fun (head, body) => ⟨head, body⟩)
    (Reader.andThen (applied identifier)
      (Reader.before
        (Reader.after (Reader.symbol .arrow) (Reader.separated (Reader.symbol .comma) predicate))
        (Reader.symbol .dot)))

/-- A predicate with a question mark. -/
def query : Reader Token Predicate :=
  Reader.before predicate (Reader.symbol .question)

/-- The keyword of a section and its colon. -/
def heading (keyword : String) : Reader Token Unit :=
  Reader.before (Reader.symbol (.word keyword)) (Reader.symbol .colon)

/-- A section with any number of entries. -/
def sectionOf {α : Type} (keyword : String) (entry : Reader Token α) : Reader Token (List α) :=
  Reader.map Prod.snd (Reader.thenMany (heading keyword) entry)

/-- A section with one or more entries. -/
def filledSection {α : Type} (keyword : String) (entry : Reader Token α) : Reader Token (List α) :=
  Reader.map (fun (first, rest) => first :: rest)
    (Reader.thenMany (Reader.after (heading keyword) entry) entry)

/-- The four sections. -/
def program : Reader Token Program :=
  Reader.map (fun (schemes, facts, rules, queries) => ⟨schemes, facts, rules, queries⟩)
    (Reader.andThen (filledSection "Schemes" scheme)
      (Reader.andThen (sectionOf "Facts" fact)
        (Reader.andThen (sectionOf "Rules" rule)
          (filledSection "Queries" query))))

/-- What a text is read as, if the reader takes all its tokens. -/
def whole? {α : Type} (p : Reader Token α) (text : String) : Option α :=
  match Token.scan? text.toList with
  | none => none
  | some tokens =>
      match p tokens with
      | some (a, ⟨[], _⟩) => some a
      | _ => none

end Grammar

/-- What a text was expected to be and is not. -/
inductive ParseError where
  | program
  | query
deriving DecidableEq, Repr

/-- The error as a sentence. -/
def ParseError.message : ParseError → String
  | program => "Failed to parse program"
  | query => "Failed to parse query"

/-- Reads a program. -/
def Program.parse (text : String) : Except ParseError Program :=
  match Grammar.whole? Grammar.program text with
  | some program => .ok program
  | none => .error .program

/-- Reads a single query: a predicate with a question mark. -/
def Predicate.parseQuery (text : String) : Except ParseError Predicate :=
  match Grammar.whole? Grammar.query text with
  | some query => .ok query
  | none => .error .query

end Grammar

end Datalog
