import Datalog.OrderedSet
import Datalog.Row

/-!
# Relations and the algebra over them

**Type.** A relation has a name, a schema and a set of rows.  `Relation.WellFormed` says that
every row has one value for each column; all operations below keep it.

**Operations.** Insertion, two selections, projection, renaming of one column and of the whole
schema, natural join and union.  All are total: a filter outside the schema holds, a renaming that
would repeat a name is refused, a union of different schemas is empty.
-/

namespace Datalog

section Relation

/-- A named set of rows under a schema. -/
structure Relation where
  name : String
  schema : Row
  rows : OrderedSet Row
deriving DecidableEq

namespace Relation

/-- Every row has one value for each column. -/
def WellFormed (r : Relation) : Prop :=
  ∀ row ∈ r.rows, row.length = r.schema.length

/-- The relation without rows. -/
def empty (name : String) (schema : Row) : Relation :=
  ⟨name, schema, ∅⟩

/-- The number of columns. -/
def arity (r : Relation) : Nat :=
  r.schema.length

/-- The number of rows. -/
def size (r : Relation) : Nat :=
  r.rows.size

/-- Whether a row can be added: it has the right length and is not there yet. -/
def accepts (r : Relation) (row : Row) : Bool :=
  row.length == r.arity && !r.rows.contains row

/-- The relation with one more row; a row of the wrong length is refused. -/
def insert (r : Relation) (row : Row) : Relation :=
  if row.length = r.arity then
    { r with rows := r.rows.insert row }
  else
    r

/-- The relation with the rows of a list inserted in turn. -/
def insertAll (r : Relation) (rows : List Row) : Relation :=
  rows.foldl insert r

/-- The rows as `col=val, col=val`, in the order of the rows. -/
def renderedRows (r : Relation) : List String :=
  r.rows.toList.map (Row.render r.schema)

section Selection

/-- Whether the row has the given value at the column. -/
def holdsValue (row : Row) (filter : Nat × String) : Bool :=
  row[filter.1]? == some filter.2

/-- Whether the row has equal values at the two columns. -/
def holdsPair (row : Row) (pair : Nat × Nat) : Bool :=
  row[pair.1]? == row[pair.2]?

/-- The rows with the given values at the given columns; a column outside the schema is no
condition. -/
def selectValues (r : Relation) (filters : List (Nat × String)) : Relation :=
  let inside := filters.filter fun filter => filter.1 < r.arity
  { r with rows := r.rows.filter fun row => inside.all (holdsValue row) }

/-- The rows that agree on each pair of columns; a pair with a column outside the schema is no
condition. -/
def selectColumns (r : Relation) (pairs : List (Nat × Nat)) : Relation :=
  let inside := pairs.filter fun pair => pair.1 < r.arity && pair.2 < r.arity
  { r with rows := r.rows.filter fun row => inside.all (holdsPair row) }

end Selection

section Projection

/-- The columns of a projection: the distinct names of the target that the schema has. -/
def projectedSchema (schema target : Row) : Row :=
  target.eraseDups.filter fun column => schema.contains column

/-- The first position of each name in the schema; names that the schema lacks are left out. -/
def positions (schema names : Row) : List Nat :=
  names.filterMap fun column => schema.idxOf? column

/-- The columns named by `target`, in its order.  A projection that leaves no column has no
rows. -/
def project (r : Relation) (target : Row) : Relation :=
  let columns := projectedSchema r.schema target
  let indices := positions r.schema columns
  { name := r.name
    schema := columns
    rows :=
      if columns.isEmpty then
        ∅
      else
        OrderedSet.ofList (r.rows.toList.filterMap fun row => row.gather? indices) }

end Projection

section Renaming

/-- The list with its first entry `old` replaced by `new`. -/
def replaceFirst (old new : String) : Row → Row
  | [] => []
  | column :: rest =>
      if column = old then
        new :: rest
      else
        column :: replaceFirst old new rest

/-- Renames the first column called `old`, unless `new` is a column already. -/
def rename (r : Relation) (old new : String) : Relation :=
  if r.schema.contains new then
    r
  else
    { r with schema := replaceFirst old new r.schema }

/-- The schema with the names put over it by position.  An empty name keeps the column's name,
and so does a missing one. -/
def overlay : Row → Row → Row
  | [], _ => []
  | columns, [] => columns
  | column :: columns, name :: names =>
      (if name = "" then column else name) :: overlay columns names

/-- Replaces the whole schema, unless a name would occur twice. -/
def renameSchema (r : Relation) (names : Row) : Relation :=
  let renamed := overlay r.schema names
  if Row.isDistinct renamed then
    { r with schema := renamed }
  else
    r

end Renaming

section Combination

/-- The positions of the columns that two schemas share: for each left column the first right
column of the same name. -/
def sharedColumns (left right : Row) : List (Nat × Nat) :=
  left.zipIdx.filterMap fun (column, i) => (right.idxOf? column).map fun j => (i, j)

/-- The positions of the right columns whose names the left schema lacks. -/
def addedColumns (left right : Row) : List Nat :=
  right.zipIdx.filterMap fun (column, j) => if left.contains column then none else some j

/-- The columns of a natural join: the left ones, then the right ones that the left side lacks. -/
def joinedSchema (left right : Row) : Row :=
  left ++ right.filter fun column => !left.contains column

/-- The values of a row at the key positions and those at the other given positions. -/
def keyed? (row : Row) (key rest : List Nat) : Option (Row × Row) :=
  match row.gather? key, row.gather? rest with
  | some keyValues, some restValues => some (keyValues, restValues)
  | _, _ => none

/-- The row followed by each continuation that has the given key. -/
def continued (row key : Row) (continuations : List (Row × Row)) : List Row :=
  continuations.filterMap fun (key', rest) => if key' = key then some (row ++ rest) else none

/-- Natural join: each left row is continued by the added values of the right rows that agree
with it on the shared columns. -/
def join (l r : Relation) : Relation :=
  let shared := sharedColumns l.schema r.schema
  let added := addedColumns l.schema r.schema
  let continuations := r.rows.toList.filterMap fun row => keyed? row (shared.map (·.2)) added
  { name := l.name
    schema := joinedSchema l.schema r.schema
    rows := OrderedSet.ofList (l.rows.toList.flatMap fun row =>
      match row.gather? (shared.map (·.1)) with
      | none => []
      | some key => continued row key continuations) }

/-- The rows of both relations, if they have the same schema; otherwise no rows. -/
def union (l r : Relation) : Relation :=
  if l.schema = r.schema then
    { l with rows := l.rows ∪ r.rows }
  else
    empty l.name l.schema

end Combination

end Relation

end Relation

end Datalog
