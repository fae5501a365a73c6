import Datalog.Answer
import Datalog.Event
import Datalog.Trace

/-!
# The report of an evaluation

**Text form.** The dependency graph and the postorder numbers where they are asked for, the traces
of the rules, and the answers to the queries, each under its heading.
-/

namespace Datalog

section Report

/-- What an evaluation tells its reader. -/
structure Report where
  dependencyGraph : Option String
  postorder : Option String
  rules : ScheduleTrace
  answers : List Answer
  /-- Whether each evaluation of a rule is listed, and not only the number of passes. -/
  traceRules : Bool
deriving DecidableEq, Repr

namespace Report

/-- An optional block under a heading, followed by a blank line. -/
def blockText (heading : String) : Option String → String
  | none => ""
  | some block => heading ++ "\n" ++ block ++ "\n"

/-- The rule, and each row that it added on an indented line. -/
def traceText (trace : RuleTrace) : String :=
  trace.rule ++ "\n" ++ String.join (trace.derived.map fun row => "  " ++ row ++ "\n")

/-- The traces in turn, or nothing where they are not wanted. -/
def tracesText (traceRules : Bool) (traces : List RuleTrace) : String :=
  if traceRules then
    String.join (traces.map traceText)
  else
    ""

/-- A component with its traces between its members and its number of passes. -/
def componentText (traceRules : Bool) (component : ComponentTrace) : String :=
  "SCC: " ++ ruleList component.members ++ "\n" ++
    tracesText traceRules component.traces ++
    toString component.passes ++ " passes: " ++ ruleList component.members ++ "\n"

/-- The evaluation of the rules. -/
def rulesText (traceRules : Bool) : ScheduleTrace → String
  | .byComponent components => String.join (components.map (componentText traceRules))
  | .together component =>
      tracesText traceRules component.traces ++
        "\nSchemes populated after " ++ toString component.passes ++
        " passes through the Rules.\n"

/-- The whole report. -/
def text (report : Report) : String :=
  blockText "Dependency Graph" report.dependencyGraph ++
    blockText "Postorder Numbers" report.postorder ++
    "Rule Evaluation\n" ++
    rulesText report.traceRules report.rules ++
    "\nQuery Evaluation" ++
    String.join (report.answers.map fun answer => "\n" ++ answer.text)

end Report

end Report

end Datalog
