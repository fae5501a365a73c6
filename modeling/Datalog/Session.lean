import Datalog.Derivation
import Datalog.Trace

/-!
# Evaluation sessions

**Type.** A session holds a database and remembers, for each relation, the rendered rows that
have been reported already.

**Operations.** Firing a rule once, a pass over a list of rules, and passes until nothing is
added.  Each row that a session adds is traced once, by the evaluation that added it.

**Measure.** No rule invents a value, so the number of rows that can ever be added is bounded by
`Database.capacity`; the passes are counted against it.
-/

namespace Datalog

section Session

namespace Database

/-- Every value of every row. -/
def values (db : Database) : OrderedSet String :=
  OrderedSet.ofList (db.relations.flatMap fun r => r.rows.toList.flatten)

/-- The number of rows that can be made of the values of the database, over all its schemas. -/
def capacity (db : Database) : Nat :=
  db.relations.foldr (fun r count => Nat.pow db.values.size r.arity + count) 0

end Database

/-- A database with the rendered rows that have been reported, by relation. -/
structure Session where
  database : Database
  reported : OrderedMap String (OrderedSet String)
deriving DecidableEq

/-- The outcome of firing one rule. -/
structure Firing where
  session : Session
  trace : RuleTrace
  events : List Event

/-- The outcome of one or more passes over a list of rules. -/
structure Passes where
  session : Session
  traces : List RuleTrace
  events : List Event

/-- Whether some trace has a row. -/
def Passes.added (passes : Passes) : Bool :=
  passes.traces.any fun trace => !trace.derived.isEmpty

namespace Session

/-- A session on a database in which nothing has been reported. -/
def ofDatabase (db : Database) : Session :=
  ⟨db, ∅⟩

/-- The rendered rows reported for a relation. -/
def reportedOf (s : Session) (name : String) : OrderedSet String :=
  (s.reported.get? name).getD ∅

/-- Adds derived rows to a head relation.  Gives the rendered rows that are new: those not
reported before, unless the relation has all the rows already. -/
def merge (s : Session) (head derived : Relation) : Session × List String :=
  let known := s.reportedOf head.name ∪ OrderedSet.ofList head.renderedRows
  let merged := head.union derived
  let fresh := merged.renderedRows.filter fun row => !known.contains row
  if s.database.holds merged then
    (⟨s.database, s.reported.insert head.name known⟩, [])
  else
    (⟨s.database.store merged,
        s.reported.insert head.name (known ∪ OrderedSet.ofList fresh)⟩, fresh)

/-- Evaluates a rule once and adds the result to its head relation. -/
def fire (s : Session) (rule : Rule) : Firing :=
  match s.database.derive rule with
  | .error obstacle => ⟨s, ⟨rule.text, []⟩, obstacle.events rule⟩
  | .ok derived =>
      match s.database.relation? rule.head.name with
      | none => ⟨s, ⟨rule.text, []⟩, []⟩
      | some head =>
          let (session, fresh) := s.merge head derived
          ⟨session, ⟨rule.text, fresh⟩, []⟩

/-- Fires each rule once, in order; each sees what the earlier ones added. -/
def pass (s : Session) : List Rule → Passes
  | [] => ⟨s, [], []⟩
  | rule :: rest =>
      let firing := s.fire rule
      let after := firing.session.pass rest
      ⟨after.session, firing.trace :: after.traces, firing.events ++ after.events⟩

/-- Repeats passes over the rules, at most `bound` of them, while `recursive` holds and the last
pass added something.  Passes are numbered from `number`; gives the number of the last one too. -/
def repeatPasses
    (s : Session) (members : List Nat) (rules : List Rule) (recursive : Bool) :
    (bound number : Nat) → Passes × Nat
  | 0, number => (⟨s, [], []⟩, number - 1)
  | bound + 1, number =>
      let first := s.pass rules
      let finished := Event.finishedPass members number first.added
      if recursive && first.added then
        let (rest, passes) :=
          first.session.repeatPasses members rules recursive bound (number + 1)
        (⟨rest.session, first.traces ++ rest.traces,
          first.events ++ finished :: rest.events⟩, passes)
      else
        (⟨first.session, first.traces, first.events ++ [finished]⟩, number)

/-- Repeats passes over the rules until a pass adds nothing, or once where `recursive` does not
hold. -/
def saturate
    (s : Session) (members : List Nat) (rules : List Rule) (recursive : Bool) :
    Passes × Nat :=
  s.repeatPasses members rules recursive (s.database.capacity + 1) 1

end Session

end Session

end Datalog
