import Datalog.Program

/-!
# Events of loading, evaluation and answering

**Type.** An event says what happened; its severity and its text follow from it.

**Text form.** The severity, a message, then the details as `key=value`, all separated by blanks.
-/

namespace Datalog

section Event

/-- How serious an event is, the most serious first. -/
inductive Severity where
  | warn
  | info
  | debug
  | trace
deriving DecidableEq, Repr

namespace Severity

/-- The position in the order of seriousness; lower is more serious. -/
def rank : Severity → Nat
  | .warn => 0
  | .info => 1
  | .debug => 2
  | .trace => 3

/-- The severity as it stands at the start of a line. -/
def label : Severity → String
  | .warn => "WARN"
  | .info => "INFO"
  | .debug => "DEBUG"
  | .trace => "TRACE"

end Severity

/-- The ids of rules as `R0,R1`. -/
def ruleList (ids : List Nat) : String :=
  ",".intercalate (ids.map fun id => "R" ++ toString id)

/-- Something worth a line in the log. -/
inductive Event where
  | undeclaredFact (relation : String)
  | factArity (relation : String) (expected found : Nat)
  | loaded (relations facts : Nat)
  | component (root size : Nat)
  | scheduling (count : Nat)
  | undeclaredHead (rule : Rule)
  | incompatibleHead (rule : Rule)
  | finishedPass (members : List Nat) (pass : Nat) (added : Bool)
  | fixpoint (passes facts : Nat)
  | unknownQuery (relation : String)
deriving DecidableEq, Repr

namespace Event

/-- How serious the event is. -/
def severity : Event → Severity
  | undeclaredFact _ | factArity _ _ _ | undeclaredHead _ | incompatibleHead _ => .warn
  | loaded _ _ | fixpoint _ _ => .info
  | scheduling _ | finishedPass _ _ _ | unknownQuery _ => .debug
  | component _ _ => .trace

/-- The part of the program that tells of the event. -/
def target : Event → String
  | undeclaredFact _ | factArity _ _ _ => "dlrel::database"
  | component _ _ => "dlrel::scc"
  | unknownQuery _ => "dlrel::query"
  | loaded _ _ | scheduling _ | undeclaredHead _ | incompatibleHead _ | finishedPass _ _ _
  | fixpoint _ _ => "dlrel::evaluator"

/-- What happened. -/
def message : Event → String
  | undeclaredFact _ => "fact names an undeclared relation"
  | factArity _ _ _ => "fact arity does not match its scheme"
  | loaded _ _ => "loaded schemes and facts"
  | component _ _ => "found strongly connected component"
  | scheduling _ => "scheduling strongly connected components"
  | undeclaredHead _ => "rule head names an undeclared relation"
  | incompatibleHead _ => "rule result is not union-compatible with its head relation"
  | finishedPass _ _ _ => "finished rule pass"
  | fixpoint _ _ => "rule evaluation reached a fixpoint"
  | unknownQuery _ => "query names an unknown relation"

/-- The details, in the order in which they are written. -/
def details : Event → List (String × String)
  | undeclaredFact relation => [("relation", relation)]
  | factArity relation expected found =>
      [("relation", relation), ("expected", toString expected), ("found", toString found)]
  | loaded relations facts =>
      [("relations", toString relations), ("facts", toString facts)]
  | component root size =>
      [("root", toString root), ("size", toString size)]
  | scheduling count => [("count", toString count)]
  | undeclaredHead rule => [("rule", rule.text)]
  | incompatibleHead rule => [("rule", rule.text)]
  | finishedPass members pass added =>
      [("members", ruleList members), ("pass", toString pass),
        ("added", if added then "true" else "false")]
  | fixpoint passes facts =>
      [("passes", toString passes), ("facts", toString facts)]
  | unknownQuery relation => [("relation", relation)]

/-- The names of all that is told of the event. -/
def fields (event : Event) : List String :=
  "message" :: event.details.map Prod.fst

/-- The event as one line. -/
def text (event : Event) : String :=
  " ".intercalate
    (event.severity.label :: event.message ::
      event.details.map fun (key, value) => key ++ "=" ++ value)

/-- The lines of the events that are at least as serious as `least`. -/
def log (least : Severity) (events : List Event) : List String :=
  (events.filter fun event => event.severity.rank ≤ least.rank).map text

end Event

end Event

end Datalog
