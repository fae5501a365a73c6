import Datalog.DependencyGraph.Components
import Datalog.Session

/-!
# Schedules

**Input.** A session and the dependency graph of the rules.

**Algorithm.** Optimized, the strongly connected components of the graph are saturated one after
the other, each after those it reads from; otherwise the whole graph is one component.  The rules
of a component are fired in the order of their ids.
-/

namespace Datalog

section Schedule

/-- The outcome of evaluating a component. -/
structure ComponentRun where
  session : Session
  trace : ComponentTrace
  events : List Event

/-- The outcome of evaluating components in turn. -/
structure ComponentRuns where
  session : Session
  traces : List ComponentTrace
  events : List Event

/-- The outcome of evaluating all rules. -/
structure ScheduleRun where
  session : Session
  trace : ScheduleTrace
  events : List Event

namespace Session

/-- Evaluates the rules of a component: until a pass adds nothing if the component is recursive,
once otherwise. -/
def evaluateComponent (s : Session) (component : DependencyGraph) : ComponentRun :=
  let rules := component.nodes.values.map fun node => node.rule.rule
  let (passes, count) := s.saturate component.ids rules component.isRecursive
  ⟨passes.session, ⟨component.ids, count, passes.traces⟩, passes.events⟩

/-- Evaluates components in turn. -/
def evaluateInTurn (s : Session) : List DependencyGraph → ComponentRuns
  | [] => ⟨s, [], []⟩
  | component :: rest =>
      let run := s.evaluateComponent component
      let runs := run.session.evaluateInTurn rest
      ⟨runs.session, run.trace :: runs.traces, run.events ++ runs.events⟩

/-- Evaluates all rules of a graph, component by component if `optimize` holds. -/
def evaluateRules (s : Session) (graph : DependencyGraph) (optimize : Bool) : ScheduleRun :=
  if optimize then
    let components := graph.componentGraphs
    let runs := s.evaluateInTurn components
    ⟨runs.session, .byComponent runs.traces,
      graph.componentEvents ++ .scheduling components.length :: runs.events⟩
  else
    let run := s.evaluateComponent graph
    ⟨run.session, .together run.trace, run.events⟩

end Session

end Schedule

end Datalog
