/-!
# Terms of predicates

**Input.** A term is a text.  Its surface form alone says how it takes part in matching.

**Rule.** A term that starts with an apostrophe is a constant.  Any other term that consists of
ASCII letters and digits only is a variable, the empty term included.  Everything else is an
expression; an expression is matched like a variable whose name is the whole text.
-/

namespace Datalog

section Term

/-- How a term takes part in matching. -/
inductive TermKind where
  | constant
  | var
  | expression
deriving DecidableEq, Repr

namespace TermKind

/-- The kind of a term, read off its text. -/
def ofText (term : String) : TermKind :=
  match term.toList with
  | '\'' :: _ => .constant
  | chars => if chars.all Char.isAlphanum then .var else .expression

/-- Whether a term stands for itself. -/
def isConstant (term : String) : Bool :=
  ofText term == .constant

/-- Constants are told by their first character alone. -/
theorem isConstant_eq
    (term : String) :
    isConstant term = (term.toList.head? == some '\'') := by
  unfold isConstant ofText
  split
  · rename_i h
    rw [h]
    rfl
  · rename_i h
    have hfirst : term.toList.head? ≠ some '\'' := by
      intro heq
      obtain ⟨rest, hrest⟩ := List.head?_eq_some_iff.1 heq
      exact h rest hrest
    rw [beq_eq_false_iff_ne.2 hfirst]
    split <;> rfl

/-- The name of the kind. -/
def name : TermKind → String
  | .constant => "constant"
  | .var => "variable"
  | .expression => "expression"

end TermKind

end Term

end Datalog
