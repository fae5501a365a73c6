import Datalog.Evaluation
import Datalog.Issue
import Datalog.Settings.LogFilter

/-!
# The log of a run

**Type.** A record is an issue of the program or an event of its evaluation, as it is written to the
log.  The issues come first, then the events in their order.

**Lines.** Texts of the program stand in records as they are, line feeds included, so that a record
can go over several lines.  In an issue, the other control characters that steer a terminal are
written as their codes.
-/

namespace Datalog

section Log

/-- An entry of the log. -/
structure LogRecord where
  target : String
  fields : List String
  severity : Severity
  text : String
deriving DecidableEq, Repr

namespace LogRecord

/-- The written form of a character of an issue. -/
def visible (c : Char) : List Char :=
  match c with
  | '\x1b' => "\\x1b".toList
  | '\x07' => "\\x07".toList
  | '\x08' => "\\x08".toList
  | '\x0c' => "\\x0c".toList
  | '\x7f' => "\\x7f".toList
  | _ =>
      if 0x80 ≤ c.toNat && c.toNat ≤ 0x9f then
        ['\\', 'u', '\x7b'] ++ Nat.toDigits 16 c.toNat ++ ['\x7d']
      else
        [c]

/-- The record of an issue. -/
def ofIssue (issue : Issue) : LogRecord :=
  ⟨"dlrel", ["message"], .warn, String.ofList (issue.message.toList.flatMap visible)⟩

/-- The record of an event. -/
def ofEvent (event : Event) : LogRecord :=
  ⟨event.target, event.fields, event.severity, event.text⟩

/-- The records of a program and its evaluation that a filter lets through. -/
def ofRun (filter : LogFilter) (program : Program) (evaluation : Evaluation) : List LogRecord :=
  (program.issues.map ofIssue ++ evaluation.events.map ofEvent).filter fun record =>
    filter.allows record.target record.fields record.severity

end LogRecord

end Log

end Datalog
