import Datalog.Report
import Datalog.Schedule
import Datalog.Settings.Basic

/-!
# Evaluating a program

**Input.** A program and the switches of the evaluation.

**Algorithm.** The schemes and facts are loaded, the rules are evaluated on the dependency graph,
and the queries are answered from the result.
-/

namespace Datalog

section Evaluation

/-- The outcome of evaluating a program. -/
structure Evaluation where
  database : Database
  report : Report
  events : List Event

namespace Evaluation

/-- Loads a program, evaluates its rules and answers its queries. -/
def ofProgram (settings : EvaluationSettings) (program : Program) : Evaluation :=
  let loaded := Database.ofProgram program
  let graph := DependencyGraph.ofRules program.rules
  let run := (Session.ofDatabase loaded).evaluateRules graph settings.optimize
  let db := run.session.database
  { database := db
    report :=
      { dependencyGraph :=
          if settings.optimize && settings.printDependencyGraph then some graph.text else none
        postorder :=
          if settings.optimize && settings.printPostorder then
            some graph.invert.postorderListing
          else
            none
        rules := run.trace
        answers := program.queries.map db.answer
        traceRules := settings.traceRules }
    events :=
      Database.loadingEvents program ++
        .loaded loaded.size loaded.factCount :: run.events ++
        .fixpoint run.trace.totalPasses db.factCount :: db.answerEvents program.queries }

end Evaluation

end Evaluation

end Datalog
