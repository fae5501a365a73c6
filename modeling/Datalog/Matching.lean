import Datalog.Program
import Datalog.Relation
import Datalog.Term

/-!
# Matching a predicate against a relation

**Input.** A relation, and a predicate whose terms stand for its columns by position.

**Algorithm.** A constant demands its text at its column, and a repeated variable demands equal
values at all its columns.  The rows that pass are counted, projected onto the first column of
each variable, and these columns are renamed to the variables.  Terms beyond the last column play no
part.
-/

namespace Datalog

section Matching

/-- The outcome of matching a predicate against a relation. -/
structure Matching where
  /-- One column for each variable, named after it. -/
  relation : Relation
  /-- The number of rows that passed, counted before the projection. -/
  matched : Nat

namespace Matching

/-- The constants among the terms, each with its column. -/
def constants (terms : List String) : List (Nat × String) :=
  terms.zipIdx.filterMap fun (term, column) =>
    if TermKind.isConstant term then some (column, term) else none

/-- Each column of a variable, paired with the first column of the same variable. -/
def repetitions (terms : List String) : List (Nat × Nat) :=
  terms.zipIdx.filterMap fun (term, column) =>
    if TermKind.isConstant term then
      none
    else
      (terms.idxOf? term).map fun first => (first, column)

/-- The distinct variables at the columns of a relation, by first occurrence. -/
def variableNames (arity : Nat) (terms : List String) : List String :=
  ((terms.take arity).filter fun term => !TermKind.isConstant term).eraseDups

/-- The column name at the first occurrence of each variable. -/
def firstColumns (schema : Row) (terms : List String) : Row :=
  (variableNames schema.length terms).filterMap fun name =>
    (terms.idxOf? name).bind fun column => schema[column]?

/-- The rows that agree with the constants and with the repeated variables. -/
def select (r : Relation) (terms : List String) : Relation :=
  (r.selectColumns (repetitions terms)).selectValues (constants terms)

/-- Matches a predicate against a relation. -/
def bind (r : Relation) (predicate : Predicate) : Matching :=
  let selected := select r predicate.terms
  { relation :=
      (selected.project (firstColumns r.schema predicate.terms)).renameSchema
        (variableNames r.arity predicate.terms)
    matched := selected.size }

end Matching

end Matching

end Datalog
