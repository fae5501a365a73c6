import Datalog.Matching
import Mathlib.Data.List.Basic
import Mathlib.Data.List.Forall2

/-!
# The rows of the results of the relational operations

**Membership.** Each operation has one lemma that says when a row belongs to its result, in terms
of the rows of its operands.

**Values and lengths.** Each operation keeps `WellFormed`, and the values of its result are values
of its operands: `Over` says of a relation that all its values have a property.

**Formation.** `Built` lists the operations that make a relation; whatever is built is well formed.
-/

namespace Datalog

section Rows

namespace Row

/-- Gathering picks the values one by one. -/
theorem gather?_eq_some_iff
    {row values : Row} {indices : List Nat} :
    row.gather? indices = some values ↔
      List.Forall₂ (fun i value => row[i]? = some value) indices values := by
  induction indices generalizing values with
  | nil =>
      rw [gather?, List.forall₂_nil_left_iff, Option.some.injEq]
      exact eq_comm
  | cons i rest ih =>
      simp only [gather?, Option.bind_eq_bind, Option.pure_def, Option.bind_eq_some_iff,
        Option.some.injEq]
      cases values with
      | nil => simp
      | cons value values =>
          rw [List.forall₂_cons, ← ih]
          constructor
          · rintro ⟨_, hvalue, _, hvalues, heq⟩
            cases heq
            exact ⟨hvalue, hvalues⟩
          · rintro ⟨hvalue, hvalues⟩
            exact ⟨value, hvalue, values, hvalues, rfl⟩

theorem length_of_gather?
    {row values : Row} {indices : List Nat}
    (h : row.gather? indices = some values) :
    values.length = indices.length :=
  (gather?_eq_some_iff.1 h).length_eq.symm

theorem mem_of_gather?
    {row values : Row} {indices : List Nat}
    (h : row.gather? indices = some values) :
    ∀ value ∈ values, value ∈ row := by
  have hall := gather?_eq_some_iff.1 h
  induction hall with
  | nil => simp
  | cons hget _ ih =>
      rename_i i value indices values _
      have hrest : row.gather? indices = some values := gather?_eq_some_iff.2 ‹_›
      intro v hv
      rcases List.mem_cons.1 hv with rfl | hv
      · exact List.mem_of_getElem? hget
      · exact ih hrest v hv

end Row

namespace Relation

section Membership

theorem mem_selectValues
    {r : Relation} {filters : List (Nat × String)} {row : Row} :
    row ∈ (r.selectValues filters).rows ↔
      row ∈ r.rows ∧ ∀ filter ∈ filters, filter.1 < r.arity → row[filter.1]? = some filter.2 := by
  simp only [selectValues, OrderedSet.mem_filter, List.all_eq_true, List.mem_filter,
    decide_eq_true_eq, holdsValue, beq_iff_eq, and_imp]

theorem mem_selectColumns
    {r : Relation} {pairs : List (Nat × Nat)} {row : Row} :
    row ∈ (r.selectColumns pairs).rows ↔
      row ∈ r.rows ∧
        ∀ pair ∈ pairs, pair.1 < r.arity → pair.2 < r.arity → row[pair.1]? = row[pair.2]? := by
  simp only [selectColumns, OrderedSet.mem_filter, List.all_eq_true, List.mem_filter,
    Bool.and_eq_true, decide_eq_true_eq, holdsPair, beq_iff_eq, and_imp]

/-- Selection for a predicate keeps the rows with its constants at their columns and equal values
at the columns of each variable. -/
theorem mem_select
    {r : Relation} {terms : List String} {row : Row} :
    row ∈ (Matching.select r terms).rows ↔
      row ∈ r.rows ∧
        (∀ pair ∈ Matching.repetitions terms,
          pair.1 < r.arity → pair.2 < r.arity → row[pair.1]? = row[pair.2]?) ∧
        ∀ filter ∈ Matching.constants terms,
          filter.1 < r.arity → row[filter.1]? = some filter.2 := by
  rw [Matching.select, mem_selectValues, mem_selectColumns, and_assoc]
  rfl

/-- The positions that a projection picks. -/
def pickedPositions (schema target : Row) : List Nat :=
  positions schema (projectedSchema schema target)

theorem mem_project
    {r : Relation} {target row : Row} :
    row ∈ (r.project target).rows ↔
      projectedSchema r.schema target ≠ [] ∧
        ∃ source ∈ r.rows, source.gather? (pickedPositions r.schema target) = some row := by
  unfold project pickedPositions
  by_cases h : projectedSchema r.schema target = []
  · simp [h]
  · simp only [List.isEmpty_iff, h, if_false, OrderedSet.mem_ofList, List.mem_filterMap,
      OrderedSet.mem_toList, ne_eq, not_false_eq_true, true_and]

theorem keyed?_eq_some_iff
    {row keyValues restValues : Row} {key rest : List Nat} :
    keyed? row key rest = some (keyValues, restValues) ↔
      row.gather? key = some keyValues ∧ row.gather? rest = some restValues := by
  unfold keyed?
  split
  · rename_i h h'
    simp [h, h']
  · rename_i h
    constructor
    · intro hnone
      cases hnone
    · rintro ⟨h₁, h₂⟩
      exact absurd h₂ (h _ _ h₁)

/-- A row of a join is a left row, followed by the added values of a right row with the same
values at the shared columns. -/
theorem mem_join
    {l r : Relation} {row : Row} :
    row ∈ (l.join r).rows ↔
      ∃ left ∈ l.rows, ∃ right ∈ r.rows, ∃ key added,
        left.gather? ((sharedColumns l.schema r.schema).map (·.1)) = some key ∧
        right.gather? ((sharedColumns l.schema r.schema).map (·.2)) = some key ∧
        right.gather? (addedColumns l.schema r.schema) = some added ∧
        row = left ++ added := by
  have hcontinued (left : Row) (hleft : left ∈ l.rows) (key : Row) (pairs : List (Row × Row)) :
      row ∈ continued left key pairs ↔ ∃ added, (key, added) ∈ pairs ∧ row = left ++ added := by
    unfold continued
    rw [List.mem_filterMap]
    constructor
    · rintro ⟨⟨key', added⟩, hmem, hif⟩
      obtain ⟨rfl, hrow⟩ := Option.ite_none_right_eq_some.1 hif
      exact ⟨added, hmem, (Option.some.inj hrow).symm⟩
    · rintro ⟨added, hmem, rfl⟩
      exact ⟨(key, added), hmem, if_pos rfl⟩
  unfold join
  simp only [OrderedSet.mem_ofList, List.mem_flatMap, OrderedSet.mem_toList]
  refine exists_congr fun left => and_congr_right fun hleft => ?_
  cases h : left.gather? ((sharedColumns l.schema r.schema).map (·.1)) with
  | none => simp
  | some key =>
      simp only [hcontinued left hleft, List.mem_filterMap, keyed?_eq_some_iff,
        OrderedSet.mem_toList, Option.some.injEq]
      constructor
      · rintro ⟨added, ⟨right, hright, hkey, hadded⟩, rfl⟩
        exact ⟨right, hright, key, added, rfl, hkey, hadded, rfl⟩
      · rintro ⟨right, hright, _, added, rfl, hkey, hadded, rfl⟩
        exact ⟨added, ⟨right, hright, hkey, hadded⟩, rfl⟩

theorem mem_insert
    {r : Relation} {new row : Row} :
    row ∈ (r.insert new).rows ↔ row ∈ r.rows ∨ (row = new ∧ new.length = r.arity) := by
  unfold insert
  split
  · rename_i h
    simp only [OrderedSet.mem_insert, h, and_true]
    exact or_comm
  · rename_i h
    simp [h]

theorem mem_union
    {l r : Relation} {row : Row}
    (h : l.schema = r.schema) :
    row ∈ (l.union r).rows ↔ row ∈ l.rows ∨ row ∈ r.rows := by
  rw [union, if_pos h]
  exact OrderedSet.mem_union

@[simp] theorem rows_renameSchema (r : Relation) (names : Row) :
    (r.renameSchema names).rows = r.rows := by
  simp only [renameSchema]
  split <;> rfl

@[simp] theorem name_renameSchema (r : Relation) (names : Row) :
    (r.renameSchema names).name = r.name := by
  simp only [renameSchema]
  split <;> rfl

@[simp] theorem rows_rename (r : Relation) (old new : String) :
    (r.rename old new).rows = r.rows := by
  unfold rename
  split <;> rfl

@[simp] theorem name_insert (r : Relation) (row : Row) :
    (r.insert row).name = r.name := by
  unfold insert
  split <;> rfl

@[simp] theorem schema_insert (r : Relation) (row : Row) :
    (r.insert row).schema = r.schema := by
  unfold insert
  split <;> rfl

theorem name_union (l r : Relation) :
    (l.union r).name = l.name := by
  unfold union
  split <;> rfl

theorem schema_union (l r : Relation) :
    (l.union r).schema = l.schema := by
  unfold union
  split <;> rfl

end Membership

section Lengths

theorem length_positions
    {schema names : Row}
    (h : ∀ name ∈ names, name ∈ schema) :
    (positions schema names).length = names.length := by
  unfold positions
  induction names with
  | nil => rfl
  | cons name rest ih =>
      have hname : name ∈ schema := h name List.mem_cons_self
      have hrest := ih fun other hother => h other (List.mem_cons_of_mem _ hother)
      obtain ⟨i, hi⟩ := Option.isSome_iff_exists.1 (List.isSome_idxOf?.2 hname)
      simp only [List.filterMap_cons, hi, List.length_cons, hrest]

theorem mem_projectedSchema
    {schema target : Row} {name : String} :
    name ∈ projectedSchema schema target ↔ name ∈ target ∧ name ∈ schema := by
  simp [projectedSchema]

theorem length_pickedPositions (schema target : Row) :
    (pickedPositions schema target).length = (projectedSchema schema target).length :=
  length_positions fun _ hname => (mem_projectedSchema.1 hname).2

theorem addedColumns_eq (left right : Row) :
    addedColumns left right =
      (right.zipIdx.filter fun entry => !left.contains entry.1).map (·.2) := by
  unfold addedColumns
  induction right.zipIdx with
  | nil => rfl
  | cons entry rest ih =>
      cases h : left.contains entry.1 with
      | true => simp only [List.filterMap_cons, List.filter_cons, h, if_true, ih, Bool.not_true,
          Bool.false_eq_true, if_false]
      | false => simp only [List.filterMap_cons, List.filter_cons, h, if_true, ih, Bool.not_false,
          Bool.false_eq_true, if_false, List.map_cons]

theorem map_fst_addedEntries (left right : Row) :
    (right.zipIdx.filter fun entry => !left.contains entry.1).map (·.1) =
      right.filter fun column => !left.contains column := by
  have hmap := List.filter_map (f := Prod.fst) (p := fun column => !left.contains column)
    (l := right.zipIdx)
  rw [List.zipIdx_map_fst] at hmap
  exact hmap.symm

theorem length_addedColumns (left right : Row) :
    (addedColumns left right).length =
      (right.filter fun column => !left.contains column).length := by
  rw [addedColumns_eq, List.length_map, ← map_fst_addedEntries, List.length_map]

theorem length_replaceFirst (old new : String) (schema : Row) :
    (replaceFirst old new schema).length = schema.length := by
  induction schema with
  | nil => rfl
  | cons column rest ih =>
      rw [replaceFirst]
      split
      · rfl
      · rw [List.length_cons, List.length_cons, ih]

theorem length_overlay (columns names : Row) :
    (overlay columns names).length = columns.length := by
  induction columns generalizing names with
  | nil => rfl
  | cons column rest ih =>
      cases names with
      | nil => rfl
      | cons name names => rw [overlay, List.length_cons, List.length_cons, ih]

theorem length_schema_renameSchema (r : Relation) (names : Row) :
    (r.renameSchema names).schema.length = r.schema.length := by
  simp only [renameSchema]
  split
  · exact length_overlay r.schema names
  · rfl

theorem length_schema_rename (r : Relation) (old new : String) :
    (r.rename old new).schema.length = r.schema.length := by
  unfold rename
  split
  · rfl
  · exact length_replaceFirst old new r.schema

end Lengths

section WellFormed

variable {l r : Relation}

theorem wellFormed_empty (name : String) (schema : Row) :
    (empty name schema).WellFormed := by
  intro row hrow
  exact absurd hrow (OrderedSet.not_mem_empty row)

theorem WellFormed.insert
    (h : r.WellFormed)
    (new : Row) :
    (r.insert new).WellFormed := by
  intro row hrow
  rw [schema_insert]
  rcases mem_insert.1 hrow with hrow | ⟨rfl, hlength⟩
  · exact h row hrow
  · exact hlength

theorem WellFormed.withName
    (h : r.WellFormed)
    (name : String) :
    WellFormed { r with name := name } :=
  h

theorem WellFormed.selectValues
    (h : r.WellFormed)
    (filters : List (Nat × String)) :
    (r.selectValues filters).WellFormed :=
  fun row hrow => h row (mem_selectValues.1 hrow).1

theorem WellFormed.selectColumns
    (h : r.WellFormed)
    (pairs : List (Nat × Nat)) :
    (r.selectColumns pairs).WellFormed :=
  fun row hrow => h row (mem_selectColumns.1 hrow).1

theorem wellFormed_project (r : Relation) (target : Row) :
    (r.project target).WellFormed := by
  intro row hrow
  obtain ⟨_, source, _, hgather⟩ := mem_project.1 hrow
  rw [Row.length_of_gather? hgather, length_pickedPositions]
  rfl

theorem WellFormed.rename
    (h : r.WellFormed)
    (old new : String) :
    (r.rename old new).WellFormed := by
  intro row hrow
  rw [rows_rename] at hrow
  rw [length_schema_rename]
  exact h row hrow

theorem WellFormed.renameSchema
    (h : r.WellFormed)
    (names : Row) :
    (r.renameSchema names).WellFormed := by
  intro row hrow
  rw [rows_renameSchema] at hrow
  rw [length_schema_renameSchema]
  exact h row hrow

theorem WellFormed.join
    (h : l.WellFormed)
    (r : Relation) :
    (l.join r).WellFormed := by
  intro row hrow
  obtain ⟨left, hleft, right, _, key, added, _, _, hadded, rfl⟩ := mem_join.1 hrow
  have hright := Row.length_of_gather? hadded
  rw [length_addedColumns] at hright
  change (left ++ added).length = (joinedSchema l.schema r.schema).length
  rw [joinedSchema, List.length_append, List.length_append, h left hleft, hright]

theorem WellFormed.union
    (hl : l.WellFormed)
    (hr : r.WellFormed) :
    (l.union r).WellFormed := by
  intro row hrow
  rw [schema_union]
  by_cases h : l.schema = r.schema
  · rcases (mem_union h).1 hrow with hrow | hrow
    · exact hl row hrow
    · rw [h]
      exact hr row hrow
  · rw [Relation.union, if_neg h] at hrow
    exact absurd hrow (OrderedSet.not_mem_empty row)

/-- A relation that comes out of the operations on relations. -/
inductive Built : Relation → Prop
  | empty (name : String) (schema : Row) : Built (empty name schema)
  | insert {r : Relation} (row : Row) : Built r → Built (r.insert row)
  | withName {r : Relation} (name : String) : Built r → Built { r with name := name }
  | selectValues {r : Relation} (filters : List (Nat × String)) :
      Built r → Built (r.selectValues filters)
  | selectColumns {r : Relation} (pairs : List (Nat × Nat)) :
      Built r → Built (r.selectColumns pairs)
  | project {r : Relation} (target : Row) : Built r → Built (r.project target)
  | rename {r : Relation} (old new : String) : Built r → Built (r.rename old new)
  | renameSchema {r : Relation} (names : Row) : Built r → Built (r.renameSchema names)
  | join {l r : Relation} : Built l → Built r → Built (l.join r)
  | union {l r : Relation} : Built l → Built r → Built (l.union r)
  | bind {r : Relation} (predicate : Predicate) :
      Built r → Built (Matching.bind r predicate).relation

theorem wellFormed_bind (r : Relation) (predicate : Predicate) :
    (Matching.bind r predicate).relation.WellFormed :=
  (wellFormed_project _ _).renameSchema _

/-- Whatever the operations build has one value for each column. -/
theorem Built.wellFormed
    (h : r.Built) :
    r.WellFormed := by
  induction h with
  | empty name schema => exact wellFormed_empty name schema
  | insert row _ ih => exact ih.insert row
  | withName name _ ih => exact ih.withName name
  | selectValues filters _ ih => exact ih.selectValues filters
  | selectColumns pairs _ ih => exact ih.selectColumns pairs
  | project target _ _ => exact wellFormed_project _ target
  | rename old new _ ih => exact ih.rename old new
  | renameSchema names _ ih => exact ih.renameSchema names
  | join _ _ ihl _ => exact ihl.join _
  | union _ _ ihl ihr => exact ihl.union ihr
  | bind predicate _ _ => exact wellFormed_bind _ predicate

end WellFormed

section Over

variable {p : String → Prop} {l r : Relation}

/-- Every value of every row has a property. -/
def Over (p : String → Prop) (r : Relation) : Prop :=
  ∀ row ∈ r.rows, ∀ value ∈ row, p value

theorem Over.select
    (h : r.Over p)
    (terms : List String) :
    (Matching.select r terms).Over p :=
  fun row hrow => h row (mem_select.1 hrow).1

theorem Over.project
    (h : r.Over p)
    (target : Row) :
    (r.project target).Over p := by
  intro row hrow value hvalue
  obtain ⟨_, source, hsource, hgather⟩ := mem_project.1 hrow
  exact h source hsource value (Row.mem_of_gather? hgather value hvalue)

theorem Over.renameSchema
    (h : r.Over p)
    (names : Row) :
    (r.renameSchema names).Over p := by
  intro row hrow
  rw [rows_renameSchema] at hrow
  exact h row hrow

theorem Over.bind
    (h : r.Over p)
    (predicate : Predicate) :
    (Matching.bind r predicate).relation.Over p :=
  ((h.select predicate.terms).project _).renameSchema _

theorem Over.join
    (hl : l.Over p)
    (hr : r.Over p) :
    (l.join r).Over p := by
  intro row hrow value hvalue
  obtain ⟨left, hleft, right, hright, _, added, _, _, hadded, rfl⟩ := mem_join.1 hrow
  rcases List.mem_append.1 hvalue with hvalue | hvalue
  · exact hl left hleft value hvalue
  · exact hr right hright value (Row.mem_of_gather? hadded value hvalue)

theorem Over.union
    (hl : l.Over p)
    (hr : r.Over p) :
    (l.union r).Over p := by
  intro row hrow
  by_cases h : l.schema = r.schema
  · rcases (mem_union h).1 hrow with hrow | hrow
    · exact hl row hrow
    · exact hr row hrow
  · rw [Relation.union, if_neg h] at hrow
    exact absurd hrow (OrderedSet.not_mem_empty row)

end Over

end Relation

end Rows

end Datalog
