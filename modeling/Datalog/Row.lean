/-!
# Rows and schemas

**Type.** A row is a list of texts, and so is a schema, the list of the column names of a
relation.

**Operations.** Picking values by position, testing for repeated values, and the two text forms:
`(a,b)` for the row on its own, and `col=val, col=val` for the row under a schema.
-/

namespace Datalog

section Row

/-- The values of a row, or the column names of a relation, in order. -/
abbrev Row := List String

namespace Row

/-- Whether no value occurs twice. -/
def isDistinct : Row → Bool
  | [] => true
  | value :: rest => !rest.contains value && isDistinct rest

theorem isDistinct_iff (row : Row) :
    isDistinct row = true ↔ row.Nodup := by
  induction row with
  | nil => simp [isDistinct]
  | cons value rest ih => simp [isDistinct, ih]

/-- The values at the given positions, in that order, if the row has all of them. -/
def gather? (row : Row) : List Nat → Option Row
  | [] => some []
  | i :: rest => do
      let value ← row[i]?
      let values ← gather? row rest
      return value :: values

/-- The row as `(a,b)`. -/
def text (row : Row) : String :=
  "(" ++ ",".intercalate row ++ ")"

/-- The row as `col=val, col=val`, up to the shorter of schema and row. -/
def render (schema row : Row) : String :=
  ", ".intercalate (List.zipWith (fun column value => column ++ "=" ++ value) schema row)

end Row

end Row

end Datalog
