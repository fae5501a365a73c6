import Datalog.Database
import Datalog.Matching

/-!
# Answers to queries

**Input.** A database and a query predicate.

**Rule.** The answer is yes if some row matches; it lists the distinct bindings of the variables.
A query of an unknown relation is answered no, and an event says so.

**Text form.** The query and the verdict, then each binding on an indented line.
-/

namespace Datalog

section Answer

/-- The answer to one query. -/
structure Answer where
  query : String
  /-- The number of matching rows; none means no. -/
  matched : Nat
  /-- The distinct bindings, rendered, in the order of the rows. -/
  bindings : List String
deriving DecidableEq, Repr

namespace Answer

/-- Whether some row matches. -/
def isYes (answer : Answer) : Bool :=
  0 < answer.matched

/-- The answer on one line, followed by a line for each binding. -/
def text (answer : Answer) : String :=
  answer.query ++
    (if answer.isYes then "? Yes(" ++ toString answer.matched ++ ")" else "? No") ++
    String.join (answer.bindings.map fun binding => "\n  " ++ binding)

end Answer

namespace Database

/-- Answers a query. -/
def answer (db : Database) (query : Predicate) : Answer :=
  match db.relation? query.name with
  | none => ⟨query.text, 0, []⟩
  | some r =>
      let found := Matching.bind r query
      ⟨query.text, found.matched, found.relation.renderedRows⟩

/-- The events of answering queries: one for each query of an unknown relation. -/
def answerEvents (db : Database) (queries : List Predicate) : List Event :=
  queries.filterMap fun query =>
    match db.relation? query.name with
    | none => some (.unknownQuery query.name)
    | some _ => none

end Database

end Answer

end Datalog
