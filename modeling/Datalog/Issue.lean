import Datalog.Program
import Datalog.Term

/-!
# Issues of a program

**Input.** Any program.

**Algorithm.** The schemes are checked first, for repeated names and repeated columns.  Then the
facts, the rules and the queries are checked against the declared schemes; where a name is declared
more than once the last scheme counts.  Last come the head variables that no body predicate binds.

None of the issues stops the evaluation.
-/

namespace Datalog

section Issue

/-- Where a predicate stands in a program. -/
inductive Place where
  | fact
  | ruleHead
  | ruleBody
  | query
deriving DecidableEq, Repr

/-- The place in words. -/
def Place.text : Place → String
  | .fact => "fact"
  | .ruleHead => "rule head"
  | .ruleBody => "rule body"
  | .query => "query"

/-- Something in a program that its author should know of. -/
inductive Issue where
  | duplicateScheme (relation : String)
  | duplicateColumn (relation column : String)
  | undeclaredRelation (place : Place) (predicate : Predicate)
  | arityMismatch (place : Place) (predicate : Predicate) (expected : Nat)
  | unboundHeadVariable (rule : Rule) (name : String)
deriving DecidableEq, Repr

/-- The issue as a sentence. -/
def Issue.message : Issue → String
  | duplicateScheme relation => "scheme " ++ relation ++ " is declared more than once"
  | duplicateColumn relation column => "scheme " ++ relation ++ " repeats column " ++ column
  | undeclaredRelation place predicate =>
      place.text ++ " " ++ predicate.text ++ " names undeclared relation " ++ predicate.name
  | arityMismatch place predicate expected =>
      place.text ++ " " ++ predicate.text ++ " has " ++ toString predicate.terms.length ++
        " terms but " ++ predicate.name ++ " has " ++ toString expected ++ " columns"
  | unboundHeadVariable rule name =>
      "rule " ++ rule.text ++ " never binds head variable " ++ name

namespace Program

/-- The entries that occur in `seen` or earlier in the list, once for each time. -/
def repeatedAfter (seen : List String) : List String → List String
  | [] => []
  | entry :: rest =>
      if seen.contains entry then
        entry :: repeatedAfter seen rest
      else
        repeatedAfter (entry :: seen) rest

/-- The issues of the schemes, given the names declared before them. -/
def schemeIssues (declared : List String) : List Predicate → List Issue
  | [] => []
  | scheme :: rest =>
      (if declared.contains scheme.name then [.duplicateScheme scheme.name] else []) ++
        (repeatedAfter [] scheme.terms).map (.duplicateColumn scheme.name) ++
        schemeIssues (scheme.name :: declared) rest

/-- The number of columns that the last scheme of a name declares. -/
def declaredArity? (program : Program) (name : String) : Option Nat :=
  (program.schemes.reverse.find? fun scheme => scheme.name == name).map fun scheme =>
    scheme.terms.length

/-- What is wrong with the shape of a predicate, if anything. -/
def shapeIssue? (program : Program) (place : Place) (predicate : Predicate) : Option Issue :=
  match program.declaredArity? predicate.name with
  | none => some (.undeclaredRelation place predicate)
  | some expected =>
      if expected = predicate.terms.length then
        none
      else
        some (.arityMismatch place predicate expected)

/-- The shape issues of the head and the body of a rule. -/
def ruleShapeIssues (program : Program) (rule : Rule) : List Issue :=
  (program.shapeIssue? .ruleHead rule.head).toList ++
    rule.body.filterMap (program.shapeIssue? .ruleBody)

/-- The head terms that are not among the variables of the body. -/
def unboundIssues (rule : Rule) : List Issue :=
  let bound := (rule.body.flatMap Predicate.terms).filter fun term => !TermKind.isConstant term
  (rule.head.terms.filter fun term => !bound.contains term).map (.unboundHeadVariable rule)

/-- Every issue of a program. -/
def issues (program : Program) : List Issue :=
  schemeIssues [] program.schemes ++
    program.facts.filterMap (program.shapeIssue? .fact) ++
    program.rules.flatMap program.ruleShapeIssues ++
    program.queries.filterMap (program.shapeIssue? .query) ++
    program.rules.flatMap unboundIssues

end Program

end Issue

end Datalog
