/-!
# Settings

**Type.** The switches of an evaluation and the wishes for the log.  The values that the fields have
here are those of the default settings.
-/

namespace Datalog

section Settings

/-- What a switch is that is on by default. -/
def switchedOn : Bool :=
  true

/-- The least level that is logged by default. -/
def usualLevel : String :=
  "warn"

/-- The form of log lines. -/
inductive LogFormat where
  | text
  | json
deriving DecidableEq, Repr, Inhabited

/-- The form of log lines by default. -/
def usualFormat : LogFormat :=
  .text

/-- The switches of an evaluation. -/
structure EvaluationSettings where
  /-- Evaluate component by component instead of all rules together. -/
  optimize : Bool := true
  /-- Put the dependency graph into the report. -/
  printDependencyGraph : Bool := true
  /-- Put the postorder numbers of the reversed graph into the report. -/
  printPostorder : Bool := false
  /-- Put each evaluation of a rule into the report. -/
  traceRules : Bool := true
deriving DecidableEq, Repr, Inhabited

/-- The wishes for the log. -/
structure LoggingSettings where
  level : String := usualLevel
  format : LogFormat := usualFormat
deriving DecidableEq, Repr, Inhabited

/-- All settings. -/
structure Settings where
  evaluation : EvaluationSettings := {}
  logging : LoggingSettings := {}
deriving DecidableEq, Repr, Inhabited

/-- The name of a log format. -/
def LogFormat.name : LogFormat → String
  | text => "text"
  | json => "json"

end Settings

end Datalog
