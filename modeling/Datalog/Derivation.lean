import Datalog.Database
import Datalog.Matching

/-!
# What a rule derives from a database

**Algorithm.** Each body predicate of a declared relation is matched; the matches are joined from
left to right on their variables, projected onto the head terms and given the schema of the head
relation.

**Refusals.** A rule derives nothing when its head relation is undeclared, when no body predicate
names a declared relation, or when the result does not have the schema of the head relation.
-/

namespace Datalog

section Derivation

/-- Why a rule cannot contribute. -/
inductive Obstacle where
  | undeclaredHead
  | unresolvedBody
  | incompatibleHead
deriving DecidableEq, Repr

/-- The events that an obstacle of a rule causes. -/
def Obstacle.events (rule : Rule) : Obstacle → List Event
  | undeclaredHead => [.undeclaredHead rule]
  | unresolvedBody => []
  | incompatibleHead => [.incompatibleHead rule]

namespace Database

/-- The matches of the body predicates that name a declared relation. -/
def boundBody (db : Database) (body : List Predicate) : List Relation :=
  body.filterMap fun predicate =>
    (db.relation? predicate.name).map fun r => (Matching.bind r predicate).relation

/-- The joined body in the shape of the head relation. -/
def shape (head : Relation) (terms : List String) (joined : Relation) : Relation :=
  { (joined.project terms).renameSchema head.schema with name := head.name }

/-- The rows that a rule derives, as a relation compatible with its head relation. -/
def derive (db : Database) (rule : Rule) : Except Obstacle Relation :=
  match db.relation? rule.head.name with
  | none => .error .undeclaredHead
  | some head =>
      match db.boundBody rule.body with
      | [] => .error .unresolvedBody
      | first :: rest =>
          let derived := shape head rule.head.terms (rest.foldl Relation.join first)
          if derived.schema = head.schema then
            .ok derived
          else
            .error .incompatibleHead

end Database

end Derivation

end Datalog
