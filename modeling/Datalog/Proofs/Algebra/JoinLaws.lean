import Datalog.Proofs.Algebra.Order
import Datalog.Proofs.Algebra.Valuation

/-!
# Laws of the join

**Comparison.** Two relations of the same columns in the same order are equal if they have the same
name and admit the same valuations.  `SameContent` leaves out the name and the order: the two
relations have the same columns in some order and admit the same valuations.

**Results.** Relations of the same content have the same projections.  The order in which relations
are joined does not change the content of the result, and the grouping does not change the result at
all.
-/

namespace Datalog

section JoinLaws

namespace Relation

/-- The columns are the same up to their order, and the rows are the same by column names. -/
structure SameContent (l r : Relation) : Prop where
  columns : ∀ column, column ∈ l.schema ↔ column ∈ r.schema
  admits : ∀ v, l.Admits v ↔ r.Admits v

section Comparison

variable {l r : Relation}

/-- Relations of the same name and columns that admit the same valuations are equal. -/
theorem Clean.eq_of_admits
    (hl : l.Clean)
    (hr : r.Clean)
    (hname : l.name = r.name)
    (hschema : l.schema = r.schema)
    (hadmits : ∀ v, l.Admits v ↔ r.Admits v) :
    l = r := by
  refine eq_of_mem_iff hname hschema fun row => ⟨fun hrow => ?_, fun hrow => ?_⟩
  · obtain ⟨v, hv, rfl⟩ := hl.exists_admits hrow
    rw [hschema]
    exact (hadmits v).1 hv
  · obtain ⟨v, hv, rfl⟩ := hr.exists_admits hrow
    rw [← hschema]
    exact (hadmits v).2 hv

theorem projectedSchema_congr
    {schema schema' : Row}
    (h : ∀ column, column ∈ schema ↔ column ∈ schema')
    (target : Row) :
    projectedSchema schema target = projectedSchema schema' target := by
  unfold projectedSchema
  refine List.filter_congr fun column _ => ?_
  rw [Bool.eq_iff_iff, List.contains_iff_mem, List.contains_iff_mem, h]

theorem SameContent.schema_project
    (h : l.SameContent r)
    (target : Row) :
    (l.project target).schema = (r.project target).schema :=
  projectedSchema_congr h.columns target

/-- A projection does not depend on the order of the columns. -/
theorem SameContent.rows_project
    (h : l.SameContent r)
    (hl : l.Clean)
    (hr : r.Clean)
    (target : Row) :
    (l.project target).rows = (r.project target).rows := by
  refine OrderedSet.ext_mem fun row => ?_
  rw [hl.mem_project_iff, hr.mem_project_iff, projectedSchema_congr h.columns target]
  simp only [h.admits]

/-- The projection of a relation onto all its columns is the relation itself, if there are any. -/
theorem Clean.project_schema
    (h : r.Clean)
    (hne : r.schema ≠ []) :
    r.project r.schema = r := by
  have hcolumns : projectedSchema r.schema r.schema = r.schema :=
    projectedSchema_eq h.nodup fun _ hcolumn => hcolumn
  refine eq_of_mem_iff rfl hcolumns fun row => ?_
  rw [h.mem_project_iff, hcolumns]
  constructor
  · rintro ⟨_, v, hv, rfl⟩
    exact hv
  · intro hrow
    exact ⟨hne, h.exists_admits hrow⟩

end Comparison

section Joins

variable {a b c : Relation}

theorem joinedSchema_assoc (left middle right : Row) :
    joinedSchema (joinedSchema left middle) right =
      joinedSchema left (joinedSchema middle right) := by
  have hnew (column : String) :
      (!(joinedSchema left middle).contains column) =
        (!left.contains column && !middle.contains column) := by
    rw [Bool.eq_iff_iff]
    simp [mem_joinedSchema]
  calc joinedSchema (joinedSchema left middle) right
      = (left ++ middle.filter fun column => !left.contains column) ++
          right.filter fun column => !left.contains column && !middle.contains column := by
        rw [joinedSchema, List.filter_congr fun column _ => hnew column]
        rfl
    _ = left ++ (middle ++ right.filter fun column => !middle.contains column).filter
          fun column => !left.contains column := by
        rw [List.append_assoc, List.filter_append, List.filter_filter]

theorem joinedSchema_self (schema : Row) :
    joinedSchema schema schema = schema := by
  have hnone : (schema.filter fun column => !schema.contains column) = [] := by
    simp [List.filter_eq_nil_iff]
  rw [joinedSchema, hnone, List.append_nil]

theorem join_assoc
    (ha : a.Clean)
    (hb : b.Clean)
    (hc : c.Clean) :
    (a.join b).join c = a.join (b.join c) := by
  refine ((ha.join hb).join hc).eq_of_admits (ha.join (hb.join hc)) rfl ?_ fun v => ?_
  · exact joinedSchema_assoc a.schema b.schema c.schema
  · rw [admits_join (ha.join hb) hc, admits_join ha hb, admits_join ha (hb.join hc),
      admits_join hb hc, and_assoc]

theorem join_self
    (ha : a.Clean) :
    a.join a = a := by
  refine (ha.join ha).eq_of_admits ha rfl (joinedSchema_self a.schema) fun v => ?_
  rw [admits_join ha ha, and_self_iff]

/-- The sides of a join can be exchanged, up to the name and the order of the columns. -/
theorem sameContent_join
    (ha : a.Clean)
    (hb : b.Clean) :
    (b.join a).SameContent (a.join b) where
  columns column := by
    rw [schema_join, schema_join, mem_joinedSchema, mem_joinedSchema]
    exact or_comm
  admits v := by
    rw [admits_join hb ha, admits_join ha hb]
    exact and_comm

theorem joinedSchema_ne_nil
    {left right : Row}
    (h : left ≠ [] ∨ right ≠ []) :
    joinedSchema left right ≠ [] := by
  have hcolumn : ∃ column, column ∈ left ∨ column ∈ right := by
    rcases h with h | h
    · obtain ⟨column, hcolumn⟩ := List.exists_mem_of_ne_nil _ h
      exact ⟨column, Or.inl hcolumn⟩
    · obtain ⟨column, hcolumn⟩ := List.exists_mem_of_ne_nil _ h
      exact ⟨column, Or.inr hcolumn⟩
  obtain ⟨column, hcolumn⟩ := hcolumn
  exact List.ne_nil_of_mem (mem_joinedSchema.2 hcolumn)

/-- Joining the same relations in another order gives the same content. -/
theorem sameContent_foldl_join
    {first first' : Relation} {rest rest' : List Relation}
    (hperm : (first :: rest).Perm (first' :: rest'))
    (hclean : ∀ r ∈ first :: rest, r.Clean) :
    (rest.foldl join first).SameContent (rest'.foldl join first') := by
  have hclean' : ∀ r ∈ first' :: rest', r.Clean := fun r hr => hclean r (hperm.mem_iff.2 hr)
  obtain ⟨_, hcolumns, hadmits⟩ := foldl_join (hclean first List.mem_cons_self)
    fun r hr => hclean r (List.mem_cons_of_mem _ hr)
  obtain ⟨_, hcolumns', hadmits'⟩ := foldl_join (hclean' first' List.mem_cons_self)
    fun r hr => hclean' r (List.mem_cons_of_mem _ hr)
  refine ⟨fun column => ?_, fun v => ?_⟩
  · rw [hcolumns, hcolumns']
    exact exists_congr fun r => and_congr_left fun _ => hperm.mem_iff
  · rw [hadmits, hadmits']
    exact forall_congr' fun r => imp_congr_left hperm.mem_iff

end Joins

/-- The join of relations with different column names is associative, name and order of the columns
included.  With its sides exchanged and its columns put back into order it has the same columns and
rows again, unless there is no column at all.  The join of a relation with itself is the
relation. -/
theorem join_laws
    {a b c : Relation}
    (ha : a.Clean)
    (hb : b.Clean)
    (hc : c.Clean) :
    (a.join b).join c = a.join (b.join c) ∧
      (a.schema ≠ [] ∨ b.schema ≠ [] →
        ((b.join a).project (a.join b).schema).schema = (a.join b).schema ∧
          ((b.join a).project (a.join b).schema).rows = (a.join b).rows) ∧
      a.join a = a := by
  refine ⟨join_assoc ha hb hc, fun hne => ?_, join_self ha⟩
  have hsame := sameContent_join ha hb
  have hproject : (a.join b).project (a.join b).schema = a.join b :=
    (ha.join hb).project_schema (joinedSchema_ne_nil hne)
  constructor
  · rw [hsame.schema_project, hproject]
  · rw [hsame.rows_project (hb.join ha) (ha.join hb), hproject]

/-- Each two of the three relations share a column, in different places. -/
theorem join_laws_cyclic :
    let a := (empty "A" ["x", "y"]).insert ["'1'", "'2'"]
    let b := (empty "B" ["z", "y"]).insert ["'3'", "'2'"]
    let c := ((empty "C" ["x", "z"]).insert ["'1'", "'3'"]).insert ["'1'", "'4'"]
    a.Clean ∧ b.Clean ∧ c.Clean ∧
      (a.join b).join c = a.join (b.join c) ∧
      (a.join b).schema = ["x", "y", "z"] ∧ (b.join a).schema = ["z", "y", "x"] ∧
      ((b.join a).project ["x", "y", "z"]).rows = (a.join b).rows ∧
      a.join a = a := by
  intro a b c
  have ha : a.Clean := ⟨by decide, ((Built.empty _ _).insert _).wellFormed⟩
  have hb : b.Clean := ⟨by decide, ((Built.empty _ _).insert _).wellFormed⟩
  have hc : c.Clean := ⟨by decide, (((Built.empty _ _).insert _).insert _).wellFormed⟩
  obtain ⟨hassoc, hcomm, hself⟩ := join_laws ha hb hc
  exact ⟨ha, hb, hc, hassoc, by decide, by decide, (hcomm (Or.inl (by decide))).2, hself⟩

end Relation

end JoinLaws

end Datalog
