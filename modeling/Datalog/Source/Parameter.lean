import Datalog.Term

/-!
# Parameters of a predicate

**Type.** A parameter is a string, an identifier, or two parameters around an operator.  In the
source text an operation stands in parentheses.

**Flattening.** The term of an operation is the terms of its sides around the operator, without
the parentheses.
-/

namespace Datalog

section Parameter

/-- The operators of expressions. -/
inductive Operator where
  | plus
  | times
deriving DecidableEq, Repr

/-- The operator as it is written. -/
def Operator.text : Operator → String
  | plus => "+"
  | times => "*"

/-- What can stand for a column in a predicate. -/
inductive Parameter where
  | quoted (text : String)
  | identifier (name : String)
  | operation (left : Parameter) (operator : Operator) (right : Parameter)
deriving DecidableEq, Repr

/-- The term that a parameter flattens to. -/
def Parameter.term : Parameter → String
  | quoted text => text
  | identifier name => name
  | operation left operator right => left.term ++ operator.text ++ right.term

end Parameter

end Datalog
