import Datalog.Program
import Datalog.Source.ParsingExpression

/-!
# The grammar as parsing expressions

**Rules.** The grammar of programs and queries, down to the characters: layout, words, strings and
the rules over them.  The rules for layout make no pairs, and those for words and strings skip no
layout inside.

**Conversion.** What the pairs of a match say: a program, or a query.  An expression flattens to its
two sides around the operator, without the parentheses.  Pairs of another shape convert to nothing.
-/

namespace Datalog

section GrammarRules

open Parsing Expression

/-- The rules of the grammar by name. -/
inductive RuleName where
  | whitespace
  | comment
  | blockComment
  | lineComment
  | keyword
  | identifier
  | string
  | operator
  | expression
  | parameter
  | scheme
  | fact
  | headPredicate
  | predicate
  | rule
  | query
  | schemes
  | facts
  | rules
  | queries
  | program
  | queryLine
  | endOfInput
deriving DecidableEq, Repr

namespace RuleName

/-- The end of a line. -/
def newline : Expression RuleName :=
  choice (literal "\n") [literal "\r\n", literal "\r"]

/-- Any character that does not start something else. -/
def anyBut (unwanted : Expression RuleName) : Expression RuleName :=
  series [absent unwanted, any]

/-- A name, and items with commas between them in parentheses. -/
def application (item : RuleName) : List (Expression RuleName) :=
  [call identifier, literal "(", call item, zeroOrMore (series [literal ",", call item]),
    literal ")"]

/-- The expression of a rule. -/
def body : RuleName → Expression RuleName
  | whitespace => choice (literal " ") [literal "\t", literal "\r", literal "\n"]
  | comment => choice (call blockComment) [call lineComment]
  | blockComment =>
      series [literal "#|", zeroOrMore (anyBut (literal "|#")), literal "|#"]
  | lineComment => series [literal "#", zeroOrMore (anyBut newline)]
  | keyword =>
      series [choice (literal "Schemes") [literal "Facts", literal "Rules", literal "Queries"],
        absent (character Char.isAlphanum)]
  | identifier =>
      series [absent (call keyword), character Char.isAlpha,
        zeroOrMore (character Char.isAlphanum)]
  | string =>
      series [literal "'", zeroOrMore (choice (literal "''") [anyBut (literal "'")]),
        literal "'"]
  | operator => choice (literal "+") [literal "*"]
  | expression =>
      series [literal "(", call parameter, call operator, call parameter, literal ")"]
  | parameter => choice (call string) [call identifier, call expression]
  | scheme => series (application identifier)
  | fact => series (application string ++ [literal "."])
  | headPredicate => series (application identifier)
  | predicate => series (application parameter)
  | rule =>
      series [call headPredicate, literal ":-", call predicate,
        zeroOrMore (series [literal ",", call predicate]), literal "."]
  | query => series [call predicate, literal "?"]
  | schemes =>
      series [literal "Schemes", literal ":", call scheme, zeroOrMore (call scheme)]
  | facts => series [literal "Facts", literal ":", zeroOrMore (call fact)]
  | rules => series [literal "Rules", literal ":", zeroOrMore (call rule)]
  | queries => series [literal "Queries", literal ":", call query, zeroOrMore (call query)]
  | program =>
      series [start, call schemes, call facts, call rules, call queries, call endOfInput]
  | queryLine => series [start, call query, call endOfInput]
  | endOfInput => finish

/-- Whether a rule makes pairs and skips layout. -/
def kind : RuleName → Kind
  | whitespace | comment | blockComment | lineComment => .silent
  | keyword | identifier | string => .atomic
  | _ => .normal

/-- Blanks, and comments with blanks after each. -/
def layout : Expression RuleName :=
  both (repeated (call whitespace)) (repeated (both (call comment) (repeated (call whitespace))))

end RuleName

/-- The rules of the grammar. -/
def grammarRules : Rules RuleName where
  kind := RuleName.kind
  body := RuleName.body
  layout := RuleName.layout

namespace Parsing

namespace Pair

/-- The text of a pair, if it is one of the given rule. -/
def text? (expected : RuleName) : Pair RuleName → Option String
  | node name text _ => if name = expected then some text else none

/-- The pairs inside a pair, if it is one of the given rule. -/
def inner? (expected : RuleName) : Pair RuleName → Option (List (Pair RuleName))
  | node name _ inner => if name = expected then some inner else none

/-- The term of a parameter. -/
def parameter? : Pair RuleName → Option String
  | node .parameter _ (node .string text _ :: _) => some text
  | node .parameter _ (node .identifier text _ :: _) => some text
  | node .parameter _ (node .expression _ (left :: operator :: right :: _) :: _) => do
      let left ← parameter? left
      let operator ← operator.text? .operator
      let right ← parameter? right
      some (left ++ operator ++ right)
  | _ => none

/-- A name with terms from the pairs inside a pair. -/
def named? (term? : Pair RuleName → Option String) : List (Pair RuleName) → Option Predicate
  | [] => none
  | name :: terms => do
      let name ← name.text? .identifier
      let terms ← terms.mapM term?
      some ⟨name, terms⟩

/-- A relation name with its columns. -/
def scheme? (pair : Pair RuleName) : Option Predicate :=
  pair.inner? .scheme >>= named? (text? .identifier)

/-- A relation name with the values of a row. -/
def fact? (pair : Pair RuleName) : Option Predicate :=
  pair.inner? .fact >>= named? (text? .string)

/-- The head of a rule. -/
def headPredicate? (pair : Pair RuleName) : Option Predicate :=
  pair.inner? .headPredicate >>= named? (text? .identifier)

/-- A relation name with parameters. -/
def predicate? (pair : Pair RuleName) : Option Predicate :=
  pair.inner? .predicate >>= named? parameter?

/-- A head and the predicates of the body. -/
def rule? (pair : Pair RuleName) : Option Rule := do
  match ← pair.inner? .rule with
  | [] => none
  | head :: body =>
      let head ← headPredicate? head
      let body ← body.mapM predicate?
      some ⟨head, body⟩

/-- The predicate of a query. -/
def query? (pair : Pair RuleName) : Option Predicate := do
  match ← pair.inner? .query with
  | [] => none
  | predicate :: _ => predicate? predicate

/-- The entries of a section. -/
def section? {α : Type} (name : RuleName) (convert : Pair RuleName → Option α)
    (pair : Pair RuleName) : Option (List α) := do
  let entries ← pair.inner? name
  entries.mapM convert

/-- The four sections of a program. -/
def program? (pair : Pair RuleName) : Option Program := do
  match ← pair.inner? .program with
  | schemes :: facts :: rules :: queries :: _ =>
      let schemes ← section? .schemes scheme? schemes
      let facts ← section? .facts fact? facts
      let rules ← section? .rules rule? rules
      let queries ← section? .queries query? queries
      some ⟨schemes, facts, rules, queries⟩
  | _ => none

/-- The query of a line. -/
def queryLine? (pair : Pair RuleName) : Option Predicate := do
  match ← pair.inner? .queryLine with
  | [] => none
  | query :: _ => query? query

end Pair

end Parsing

end GrammarRules

end Datalog
