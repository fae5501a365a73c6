import Datalog.OrderedSet
import Datalog.Row

/-!
# Programs

**Input.** A program lists schemes (relation names with column names), facts, rules and queries.
All four are made of predicates: a relation name applied to terms.

**Text form.** Each part has one.  The text of a program counts the entries of each section and
ends with the domain: the distinct terms of its facts in ascending order.
-/

namespace Datalog

section Program

/-- A relation name applied to terms. -/
structure Predicate where
  name : String
  terms : List String
deriving DecidableEq, Repr

/-- Every row that the body predicates match together is in the relation of the head. -/
structure Rule where
  head : Predicate
  body : List Predicate
deriving DecidableEq, Repr

/-- A whole program, each section in the order of the source text. -/
structure Program where
  schemes : List Predicate
  facts : List Predicate
  rules : List Rule
  queries : List Predicate
deriving DecidableEq, Repr

/-- The predicate as `P(x,y)`. -/
def Predicate.text (predicate : Predicate) : String :=
  predicate.name ++ "(" ++ ",".intercalate predicate.terms ++ ")"

/-- The rule as `H(x) :- B(x),C(x).` -/
def Rule.text (rule : Rule) : String :=
  rule.head.text ++ " :- " ++ ",".intercalate (rule.body.map Predicate.text) ++ "."

namespace Program

/-- Every distinct term of a fact. -/
def domain (program : Program) : OrderedSet String :=
  OrderedSet.ofList (program.facts.flatMap Predicate.terms)

/-- A section heading with the number of entries, then each entry on an indented line. -/
def sectionText (title : String) (entries : List String) : String :=
  title ++ "(" ++ toString entries.length ++ "):" ++
    String.join (entries.map fun entry => "\n  " ++ entry)

/-- The program with its domain, one entry to a line. -/
def text (program : Program) : String :=
  "\n".intercalate
    [sectionText "Schemes" (program.schemes.map Predicate.text),
      sectionText "Facts" (program.facts.map fun fact => fact.text ++ "."),
      sectionText "Rules" (program.rules.map Rule.text),
      sectionText "Queries" (program.queries.map fun query => query.text ++ "?"),
      sectionText "Domain" program.domain.toList]

end Program

end Program

end Datalog
