import Datalog.Proofs.Algebra.Matching

/-!
# Relational operations that read by position

**Reading.** Selection, projection, join and matching read values by their positions in a row, and
renaming writes a column name at its position.  The operations with a question mark are stopped by
a position that is not there, and by a result in which some row has too few or too many values.

**Sequences.** An `Operation` takes a relation to the next one, perhaps together with a second
relation that was made before.  `perform` carries it out, and `perform?` does so with stops.

**Results.** Every position that an operation reads is one of a column.  So no operation is stopped
on relations that were made by operations.  No operation repeats a column name.
-/

namespace Datalog

section Positions

section Stopping

variable {α β : Type} {l : List α}

theorem allM_eq
    {test : α → Option Bool} {p : α → Bool}
    (h : ∀ a ∈ l, test a = some (p a)) :
    l.allM test = some (l.all p) := by
  induction l with
  | nil => rfl
  | cons a rest ih =>
      have hrest := ih fun b hb => h b (List.mem_cons_of_mem _ hb)
      rw [List.allM, h a List.mem_cons_self, List.all_cons]
      cases p a with
      | true => exact hrest
      | false => rfl

theorem filterM_eq
    {test : α → Option Bool} {p : α → Bool}
    (h : ∀ a ∈ l, test a = some (p a)) :
    l.filterM test = some (l.filter p) := by
  have haux (l : List α) (h : ∀ a ∈ l, test a = some (p a)) (kept : List α) :
      l.filterAuxM test kept = some ((l.filter p).reverse ++ kept) := by
    induction l generalizing kept with
    | nil => rfl
    | cons a rest ih =>
        have hrest := ih fun b hb => h b (List.mem_cons_of_mem _ hb)
        rw [List.filterAuxM, h a List.mem_cons_self, Option.bind_eq_bind, Option.bind_some, hrest]
        cases hp : p a <;> simp [hp]
  rw [List.filterM, haux l h, List.append_nil]
  exact congrArg some (List.reverse_reverse _)

theorem mapM_eq
    {f : α → Option β} {g : α → β}
    (h : ∀ a ∈ l, f a = some (g a)) :
    l.mapM f = some (l.map g) := by
  induction l with
  | nil => rfl
  | cons a rest ih =>
      have hrest := ih fun b hb => h b (List.mem_cons_of_mem _ hb)
      rw [List.mapM_cons, h a List.mem_cons_self, hrest]
      rfl

theorem mapM_eq_filterMap
    {f : α → Option β} {g : α → β}
    (h : ∀ a ∈ l, f a = some (g a)) :
    l.mapM f = some (l.filterMap f) := by
  rw [mapM_eq h, List.filterMap_eq_map_iff_forall_eq_some.2 h]

end Stopping

namespace Row

/-- The values at the given positions, with the empty text for a missing one. -/
def pick (row : Row) (indices : List Nat) : Row :=
  indices.map fun i => row.getD i ""

theorem gather?_eq_pick
    {row : Row} {indices : List Nat}
    (h : ∀ i ∈ indices, i < row.length) :
    row.gather? indices = some (row.pick indices) := by
  have hvalues : ∀ i ∈ indices, row[id i]? = some (row.getD i "") := by
    intro i hi
    rw [List.getD_eq_getElem?_getD, id, List.getElem?_eq_getElem (h i hi)]
    rfl
  have hgather := gather?_map hvalues
  rw [List.map_id] at hgather
  exact hgather

end Row

namespace Relation

section Columns

theorem lt_of_mem_positions
    {schema names : Row} {i : Nat}
    (h : i ∈ positions schema names) :
    i < schema.length := by
  obtain ⟨name, _, hi⟩ := List.mem_filterMap.1 h
  exact (List.idxOf?_eq_some_iff.1 hi).1

theorem lt_of_mem_sharedColumns
    {left right : Row} {pair : Nat × Nat}
    (h : pair ∈ sharedColumns left right) :
    pair.1 < left.length ∧ pair.2 < right.length := by
  obtain ⟨hleft, hright⟩ := getElem?_shared h
  exact ⟨(List.getElem?_eq_some_iff.1 hleft).1, (List.getElem?_eq_some_iff.1 hright).1⟩

theorem lt_of_mem_addedColumns
    {left right : Row} {j : Nat}
    (h : j ∈ addedColumns left right) :
    j < right.length := by
  rw [addedColumns_eq] at h
  obtain ⟨entry, hentry, rfl⟩ := List.mem_map.1 h
  have hcolumn := List.mem_zipIdx_iff_getElem?.1 (List.mem_filter.1 hentry).1
  exact (List.getElem?_eq_some_iff.1 hcolumn).1

/-- A row of the left side has values at the shared columns. -/
theorem gather?_leftKey
    {left right row : Row}
    (h : row.length = left.length) :
    row.gather? ((sharedColumns left right).map (·.1)) =
      some (row.pick ((sharedColumns left right).map (·.1))) := by
  refine Row.gather?_eq_pick fun i hi => ?_
  obtain ⟨pair, hpair, rfl⟩ := List.mem_map.1 hi
  rw [h]
  exact (lt_of_mem_sharedColumns hpair).1

/-- A row of the right side has values at the shared and at the added columns. -/
theorem keyed?_rightKey
    {left right row : Row}
    (h : row.length = right.length) :
    keyed? row ((sharedColumns left right).map (·.2)) (addedColumns left right) =
      some (row.pick ((sharedColumns left right).map (·.2)),
        row.pick (addedColumns left right)) := by
  rw [keyed?_eq_some_iff]
  constructor
  · refine Row.gather?_eq_pick fun j hj => ?_
    obtain ⟨pair, hpair, rfl⟩ := List.mem_map.1 hj
    rw [h]
    exact (lt_of_mem_sharedColumns hpair).2
  · refine Row.gather?_eq_pick fun j hj => ?_
    rw [h]
    exact lt_of_mem_addedColumns hj

/-- The names at the added columns are those that the left side lacks. -/
theorem gather?_addedNames (left right : Row) :
    right.gather? (addedColumns left right) =
      some (right.filter fun column => !left.contains column) := by
  have hgather := gather?_added left right id
  rw [List.map_id, List.map_id] at hgather
  exact hgather

theorem replaceFirst_eq_set
    {schema : Row} {old new : String} {i : Nat}
    (h : schema.idxOf? old = some i) :
    replaceFirst old new schema = schema.set i new := by
  induction schema generalizing i with
  | nil => cases h
  | cons column rest ih =>
      rw [List.idxOf?_cons] at h
      rw [replaceFirst]
      by_cases hcolumn : column = old
      · simp only [hcolumn, beq_self_eq_true, if_true, Option.some.injEq] at h ⊢
        subst h
        rfl
      · have hbeq : (column == old) = false := beq_eq_false_iff_ne.2 hcolumn
        rw [hbeq, if_neg Bool.false_ne_true] at h
        obtain ⟨j, hj, rfl⟩ := Option.map_eq_some_iff.1 h
        rw [if_neg hcolumn, ih hj]
        rfl

theorem replaceFirst_eq_self
    {schema : Row} {old new : String}
    (h : schema.idxOf? old = none) :
    replaceFirst old new schema = schema := by
  induction schema with
  | nil => rfl
  | cons column rest ih =>
      rw [List.idxOf?_eq_none_iff, List.mem_cons, not_or] at h
      rw [replaceFirst, if_neg (Ne.symm h.1), ih (List.idxOf?_eq_none_iff.2 h.2)]

end Columns

section Definitions

/-- The relation, if every row has one value for each column. -/
def regular? (r : Relation) : Option Relation :=
  if r.rows.toList.all fun row => row.length == r.schema.length then some r else none

/-- Compares the value at a column with a text. -/
def readsValue? (row : Row) (filter : Nat × String) : Option Bool :=
  row[filter.1]?.map fun value => value == filter.2

/-- Compares the values at two columns. -/
def readsPair? (row : Row) (pair : Nat × Nat) : Option Bool := do
  let first ← row[pair.1]?
  let second ← row[pair.2]?
  return first == second

/-- The rows that pass all tests of a list, with stops. -/
def keep? {α : Type} (r : Relation) (tests : List α) (reads? : Row → α → Option Bool) :
    Option Relation := do
  let rows ← r.rows.toList.filterM fun row => tests.allM (reads? row)
  regular? { r with rows := OrderedSet.ofList rows }

/-- Selection by values, with stops. -/
def selectValues? (r : Relation) (filters : List (Nat × String)) : Option Relation :=
  r.keep? (filters.filter fun filter => filter.1 < r.arity) readsValue?

/-- Selection by equal values, with stops. -/
def selectColumns? (r : Relation) (pairs : List (Nat × Nat)) : Option Relation :=
  r.keep? (pairs.filter fun pair => pair.1 < r.arity && pair.2 < r.arity) readsPair?

/-- Projection, with stops. -/
def project? (r : Relation) (target : Row) : Option Relation :=
  let columns := projectedSchema r.schema target
  if columns.isEmpty then
    regular? ⟨r.name, columns, ∅⟩
  else do
    let rows ← r.rows.toList.mapM fun row => row.gather? (positions r.schema columns)
    regular? ⟨r.name, columns, OrderedSet.ofList rows⟩

/-- Renaming of the first column of a name, with stops. -/
def rename? (r : Relation) (old new : String) : Option Relation :=
  if r.schema.contains new then
    some r
  else
    match r.schema.idxOf? old with
    | none => some r
    | some i => if i < r.arity then some { r with schema := r.schema.set i new } else none

/-- Natural join, with stops. -/
def join? (l r : Relation) : Option Relation := do
  let shared := sharedColumns l.schema r.schema
  let added := addedColumns l.schema r.schema
  let names ← Row.gather? r.schema added
  let continuations ← r.rows.toList.mapM fun row => keyed? row (shared.map (·.2)) added
  let rows ← l.rows.toList.mapM fun row =>
    (row.gather? (shared.map (·.1))).map fun key => continued row key continuations
  regular? ⟨l.name, l.schema ++ names, OrderedSet.ofList rows.flatten⟩

/-- Union, with stops. -/
def union? (l r : Relation) : Option Relation :=
  if l.schema = r.schema then
    regular? { l with rows := l.rows ∪ r.rows }
  else
    some (empty l.name l.schema)

/-- Matching against a predicate, with stops. -/
def bind? (r : Relation) (predicate : Predicate) : Option Relation := do
  let names := Matching.variableNames r.arity predicate.terms
  let columns ← Row.gather? r.schema (names.map predicate.terms.idxOf)
  let agreeing ← r.selectColumns? (Matching.repetitions predicate.terms)
  let selected ← agreeing.selectValues? (Matching.constants predicate.terms)
  let projected ← selected.project? columns
  return projected.renameSchema names

/-- One step from a relation to the next. -/
inductive Operation where
  | insert (row : Row)
  | withName (name : String)
  | selectValues (filters : List (Nat × String))
  | selectColumns (pairs : List (Nat × Nat))
  | project (target : Row)
  | rename (old new : String)
  | renameSchema (names : Row)
  | join (other : Relation)
  | union (other : Relation)
  | bind (predicate : Predicate)

/-- The second relations of an operation. -/
def Operation.others : Operation → List Relation
  | .join other => [other]
  | .union other => [other]
  | _ => []

/-- The relation that an operation gives. -/
def perform (r : Relation) : Operation → Relation
  | .insert row => r.insert row
  | .withName name => { r with name := name }
  | .selectValues filters => r.selectValues filters
  | .selectColumns pairs => r.selectColumns pairs
  | .project target => r.project target
  | .rename old new => r.rename old new
  | .renameSchema names => r.renameSchema names
  | .join other => r.join other
  | .union other => r.union other
  | .bind predicate => (Matching.bind r predicate).relation

/-- The relation that an operation gives, with stops. -/
def perform? (r : Relation) : Operation → Option Relation
  | .insert row => some (r.insert row)
  | .withName name => some { r with name := name }
  | .selectValues filters => r.selectValues? filters
  | .selectColumns pairs => r.selectColumns? pairs
  | .project target => r.project? target
  | .rename old new => r.rename? old new
  | .renameSchema names => some (r.renameSchema names)
  | .join other => r.join? other
  | .union other => r.union? other
  | .bind predicate => r.bind? predicate

end Definitions

section Unstopped

variable {l r : Relation}

theorem WellFormed.regular?_eq
    (h : r.WellFormed) :
    r.regular? = some r := by
  refine if_pos (List.all_eq_true.2 fun row hrow => ?_)
  exact beq_iff_eq.2 (h row hrow)

theorem WellFormed.keep?_eq
    {α : Type} {tests : List α} {reads? : Row → α → Option Bool} {holds : Row → α → Bool}
    (h : r.WellFormed)
    (hreads : ∀ row ∈ r.rows, ∀ test ∈ tests, reads? row test = some (holds row test)) :
    r.keep? tests reads? =
      some { r with rows := r.rows.filter fun row => tests.all (holds row) } := by
  have hrows :
      r.rows.toList.filterM (fun row => tests.allM (reads? row)) =
        some (r.rows.toList.filter fun row => tests.all (holds row)) :=
    filterM_eq fun row hrow => allM_eq (hreads row hrow)
  have hset :
      OrderedSet.ofList (r.rows.toList.filter fun row => tests.all (holds row)) =
        r.rows.filter fun row => tests.all (holds row) :=
    OrderedSet.ext_mem fun _ => OrderedSet.mem_ofList
  unfold keep?
  rw [hrows, Option.bind_eq_bind, Option.bind_some, hset]
  exact WellFormed.regular?_eq fun row hrow => h row (OrderedSet.mem_filter.1 hrow).1

theorem WellFormed.selectValues?_eq
    (h : r.WellFormed)
    (filters : List (Nat × String)) :
    r.selectValues? filters = some (r.selectValues filters) := by
  refine h.keep?_eq fun row hrow filter hfilter => ?_
  have hinside : filter.1 < row.length := by
    rw [h row hrow]
    exact of_decide_eq_true (List.mem_filter.1 hfilter).2
  unfold readsValue? holdsValue
  rw [List.getElem?_eq_getElem hinside, Option.map_some, Option.some_beq_some]

theorem WellFormed.selectColumns?_eq
    (h : r.WellFormed)
    (pairs : List (Nat × Nat)) :
    r.selectColumns? pairs = some (r.selectColumns pairs) := by
  refine h.keep?_eq fun row hrow pair hpair => ?_
  have hinside : pair.1 < row.length ∧ pair.2 < row.length := by
    have htest := (List.mem_filter.1 hpair).2
    rw [Bool.and_eq_true, decide_eq_true_iff, decide_eq_true_iff] at htest
    rw [h row hrow]
    exact htest
  unfold readsPair? holdsPair
  rw [List.getElem?_eq_getElem hinside.1, List.getElem?_eq_getElem hinside.2,
    Option.some_beq_some]
  rfl

theorem WellFormed.project?_eq
    (h : r.WellFormed)
    (target : Row) :
    r.project? target = some (r.project target) := by
  have hgather : ∀ row ∈ r.rows.toList,
      row.gather? (pickedPositions r.schema target) =
        some (row.pick (pickedPositions r.schema target)) := by
    intro row hrow
    refine Row.gather?_eq_pick fun i hi => ?_
    rw [h row hrow]
    exact lt_of_mem_positions hi
  have hrows := mapM_eq_filterMap hgather
  have hregular := (wellFormed_project r target).regular?_eq
  unfold project?
  unfold project at hregular ⊢
  unfold pickedPositions at hrows
  simp only at hregular ⊢
  split
  · rename_i hcolumns
    rw [if_pos hcolumns] at hregular
    exact hregular
  · rename_i hcolumns
    rw [if_neg hcolumns] at hregular
    rw [hrows, Option.bind_eq_bind, Option.bind_some]
    exact hregular

theorem rename?_eq (r : Relation) (old new : String) :
    r.rename? old new = some (r.rename old new) := by
  unfold rename? rename
  by_cases hnew : r.schema.contains new
  · rw [if_pos hnew, if_pos hnew]
  · rw [if_neg hnew, if_neg hnew]
    cases hold : r.schema.idxOf? old with
    | none => rw [replaceFirst_eq_self hold]
    | some i =>
        have hi : i < r.arity := (List.idxOf?_eq_some_iff.1 hold).1
        simp only [if_pos hi, replaceFirst_eq_set hold]

theorem WellFormed.join?_eq
    (hl : l.WellFormed)
    (hr : r.WellFormed) :
    l.join? r = some (l.join r) := by
  have hkeys (row : Row) (hrow : row ∈ r.rows.toList) :
      keyed? row ((sharedColumns l.schema r.schema).map (·.2)) (addedColumns l.schema r.schema) =
        some (row.pick ((sharedColumns l.schema r.schema).map (·.2)),
          row.pick (addedColumns l.schema r.schema)) :=
    keyed?_rightKey (hr row hrow)
  have hcontinuations := mapM_eq_filterMap hkeys
  have hregular := (hl.join r).regular?_eq
  unfold join?
  unfold Relation.join at hregular ⊢
  simp only at hregular ⊢
  rw [gather?_addedNames, hcontinuations]
  simp only [Option.bind_eq_bind, Option.bind_some]
  refine (congrArg (Option.bind · _) (mapM_eq fun row hrow => ?_)).trans hregular
  rw [gather?_leftKey (hl row hrow)]
  rfl

theorem WellFormed.union?_eq
    (hl : l.WellFormed)
    (hr : r.WellFormed) :
    l.union? r = some (l.union r) := by
  have hregular := (hl.union hr).regular?_eq
  unfold union?
  split
  · rename_i hschema
    rw [Relation.union, if_pos hschema] at hregular ⊢
    exact hregular
  · rename_i hschema
    rw [Relation.union, if_neg hschema]

theorem WellFormed.bind?_eq
    (h : r.WellFormed)
    (predicate : Predicate) :
    r.bind? predicate = some (Matching.bind r predicate).relation := by
  have hcolumns :
      r.schema.gather? ((Matching.variableNames r.arity predicate.terms).map
          predicate.terms.idxOf) =
        some (Matching.firstColumns r.schema predicate.terms) := by
    rw [Matching.firstColumns_eq]
    exact Row.gather?_map fun name hname => Matching.getElem?_firstColumn hname
  have hagreeing := h.selectColumns (Matching.repetitions predicate.terms)
  have hselected := hagreeing.selectValues (Matching.constants predicate.terms)
  unfold bind?
  simp only [hcolumns, h.selectColumns?_eq, hagreeing.selectValues?_eq, hselected.project?_eq,
    Option.bind_eq_bind, Option.bind_some]
  rfl

/-- No operation is stopped on relations whose rows have one value for each column. -/
theorem WellFormed.perform?_eq
    (h : r.WellFormed)
    {op : Operation}
    (hothers : ∀ other ∈ op.others, other.WellFormed) :
    r.perform? op = some (r.perform op) := by
  cases op with
  | insert row => rfl
  | withName name => rfl
  | selectValues filters => exact h.selectValues?_eq filters
  | selectColumns pairs => exact h.selectColumns?_eq pairs
  | project target => exact h.project?_eq target
  | rename old new => exact rename?_eq r old new
  | renameSchema names => rfl
  | join other => exact h.join?_eq (hothers other (List.mem_singleton.2 rfl))
  | union other => exact h.union?_eq (hothers other (List.mem_singleton.2 rfl))
  | bind predicate => exact h.bind?_eq predicate

theorem Built.perform
    (h : r.Built)
    {op : Operation}
    (hothers : ∀ other ∈ op.others, other.Built) :
    (r.perform op).Built := by
  cases op with
  | insert row => exact h.insert row
  | withName name => exact h.withName name
  | selectValues filters => exact h.selectValues filters
  | selectColumns pairs => exact h.selectColumns pairs
  | project target => exact h.project target
  | rename old new => exact h.rename old new
  | renameSchema names => exact h.renameSchema names
  | join other => exact h.join (hothers other (List.mem_singleton.2 rfl))
  | union other => exact h.union (hothers other (List.mem_singleton.2 rfl))
  | bind predicate => exact h.bind predicate

end Unstopped

section Distinct

variable {r : Relation}

theorem mem_replaceFirst
    {old new column : String} {schema : Row}
    (h : column ∈ replaceFirst old new schema) :
    column = new ∨ column ∈ schema := by
  induction schema with
  | nil => exact Or.inr h
  | cons first rest ih =>
      rw [replaceFirst] at h
      split at h
      · exact (List.mem_cons.1 h).imp_right (List.mem_cons_of_mem _)
      · rcases List.mem_cons.1 h with rfl | h
        · exact Or.inr List.mem_cons_self
        · exact (ih h).imp_right (List.mem_cons_of_mem _)

theorem nodup_replaceFirst
    {old new : String} {schema : Row}
    (hnodup : schema.Nodup)
    (hnew : new ∉ schema) :
    (replaceFirst old new schema).Nodup := by
  induction schema with
  | nil => exact List.nodup_nil
  | cons column rest ih =>
      obtain ⟨hcolumn, hrest⟩ := List.nodup_cons.1 hnodup
      rw [List.mem_cons, not_or] at hnew
      rw [replaceFirst]
      split
      · exact List.nodup_cons.2 ⟨hnew.2, hrest⟩
      · refine List.nodup_cons.2 ⟨fun hmem => ?_, ih hrest hnew.2⟩
        exact (mem_replaceFirst hmem).elim (fun heq => hnew.1 heq.symm) hcolumn

theorem nodup_rename
    (h : r.schema.Nodup)
    (old new : String) :
    (r.rename old new).schema.Nodup := by
  unfold rename
  split
  · exact h
  · rename_i hnew
    exact nodup_replaceFirst h fun hmem => hnew (List.contains_iff_mem.2 hmem)

theorem nodup_perform
    (h : r.schema.Nodup)
    {op : Operation}
    (hothers : ∀ other ∈ op.others, other.schema.Nodup) :
    (r.perform op).schema.Nodup := by
  cases op with
  | insert row =>
      rw [perform, schema_insert]
      exact h
  | withName name => exact h
  | selectValues filters => exact h
  | selectColumns pairs => exact h
  | project target => exact nodup_projectedSchema r.schema target
  | rename old new => exact nodup_rename h old new
  | renameSchema names => exact nodup_renameSchema h names
  | join other => exact nodup_joinedSchema h (hothers other (List.mem_singleton.2 rfl))
  | union other =>
      rw [perform, schema_union]
      exact h
  | bind predicate => exact (Matching.clean_bind r predicate).nodup

end Distinct

/-- Relations that were made by operations have one value for each column in every row, and no
operation on them is stopped.  No operation takes relations without repeated column names to one
that repeats a name, and projection and matching give none whatever they start from. -/
theorem operations_unstopped :
    (∀ r : Relation, r.Built →
        r.WellFormed ∧
          ∀ op : Operation, (∀ other ∈ op.others, other.Built) →
            r.perform? op = some (r.perform op) ∧ (r.perform op).Built) ∧
      (∀ (r : Relation) (op : Operation), r.schema.Nodup →
        (∀ other ∈ op.others, other.schema.Nodup) → (r.perform op).schema.Nodup) ∧
      ∀ r : Relation,
        (∀ target, (r.project target).schema.Nodup) ∧
          ∀ predicate, (Matching.bind r predicate).relation.schema.Nodup := by
  refine ⟨fun r hr => ⟨hr.wellFormed, fun op hothers => ?_⟩, ?_, fun r => ?_⟩
  · have hwellFormed : ∀ other ∈ op.others, other.WellFormed :=
      fun other hother => (hothers other hother).wellFormed
    exact ⟨hr.wellFormed.perform?_eq hwellFormed, hr.perform hothers⟩
  · exact fun r op hr hothers => nodup_perform hr hothers
  · exact ⟨nodup_projectedSchema r.schema, fun predicate => (Matching.clean_bind r predicate).nodup⟩

/-- Repeated column names on both sides of a join, and more terms than columns. -/
theorem repeatedColumns_unstopped :
    let left := (empty "L" ["a", "b", "a"]).insert ["'1'", "'2'", "'3'"]
    let right := (empty "R" ["c", "b", "a", "c"]).insert ["'4'", "'2'", "'1'", "'5'"]
    let predicate : Predicate := ⟨"L", ["x", "'2'", "x", "y", "'6'"]⟩
    left.Built ∧ right.Built ∧
      left.perform? (.join right) = some (left.join right) ∧
      left.perform? (.bind predicate) = some (Matching.bind left predicate).relation ∧
      (left.join right).schema = ["a", "b", "a", "c", "c"] ∧ (left.join right).WellFormed ∧
      ["a", "b"].Nodup ∧ ((empty "S" ["a", "b"]).perform (.rename "a" "b")).schema.Nodup := by
  intro left right predicate
  have hleft : left.Built := (Built.empty _ _).insert _
  have hright : right.Built := (Built.empty _ _).insert _
  obtain ⟨hsteps, hnodup, _⟩ := operations_unstopped
  have hother : ∀ other ∈ (Operation.join right).others, other.Built := by
    intro other hmem
    rw [List.mem_singleton.1 hmem]
    exact hright
  obtain ⟨hjoin, hjoined⟩ := (hsteps left hleft).2 (.join right) hother
  obtain ⟨hbind, _⟩ := (hsteps left hleft).2 (.bind predicate) nofun
  have hdifferent : ["a", "b"].Nodup := by decide
  exact ⟨hleft, hright, hjoin, hbind, by decide, (hsteps _ hjoined).1, hdifferent,
    hnodup (empty "S" ["a", "b"]) (.rename "a" "b") hdifferent nofun⟩

end Relation

end Positions

end Datalog
