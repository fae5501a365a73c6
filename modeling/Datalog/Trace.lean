/-!
# Traces of an evaluation

**Type.** A rule trace records one evaluation of one rule, a component trace all passes over the
rules of one component, and a schedule trace a whole run.  They hold texts, ready for a report.
-/

namespace Datalog

section Trace

/-- One evaluation of one rule: the rule, and the rows that it added, rendered. -/
structure RuleTrace where
  rule : String
  derived : List String
deriving DecidableEq, Repr

/-- All passes over the rules of one component. -/
structure ComponentTrace where
  members : List Nat
  passes : Nat
  traces : List RuleTrace
deriving DecidableEq, Repr

/-- A whole run: component by component, or all rules together. -/
inductive ScheduleTrace where
  | byComponent (components : List ComponentTrace)
  | together (component : ComponentTrace)
deriving DecidableEq, Repr

/-- The number of passes of the whole run. -/
def ScheduleTrace.totalPasses : ScheduleTrace → Nat
  | byComponent components => components.foldr (fun c count => c.passes + count) 0
  | together component => component.passes

end Trace

end Datalog
