import Datalog.Proofs.Algebra.Order
import Datalog.Proofs.Algebra.Valuation
import Mathlib.Data.List.Permutation

/-!
# Projections in a row

**View.** The value of a row under a column name is that of the first column with the name.  A
projection writes down the values under its columns.  This also holds where the schema repeats
names, so that a row is no valuation of them.

**Composition.** The columns of a second projection are columns of the first one, and in a row of
the first projection the value under such a column is the one that the original row has there.  Both
projections leave no row exactly where they leave no column.

**Results.** Two projections in a row are one projection onto the names of the second target that
the first target has, too.  A relation is its own projection onto its schema exactly if no column
name is repeated and it has no row without a column.
-/

namespace Datalog

section Projecting

namespace Row

/-- The value of a row at the first column with a name. -/
def under (schema row : Row) (name : String) : String :=
  row.getD (schema.idxOf name) ""

theorem getElem?_idxOf_eq_under
    {schema row : Row} {name : String}
    (hname : name ∈ schema)
    (hlength : row.length = schema.length) :
    row[schema.idxOf name]? = some (under schema row name) := by
  have hlt : schema.idxOf name < row.length := hlength ▸ List.idxOf_lt_length_of_mem hname
  rw [under, List.getD_eq_getElem?_getD, List.getElem?_eq_getElem hlt, Option.getD_some]

/-- A row that is written down column by column has these values under its columns. -/
theorem under_map
    {columns : Row} {value : String → String} {name : String}
    (hname : name ∈ columns) :
    under columns (columns.map value) name = value name := by
  rw [under, List.getD_eq_getElem?_getD, List.getElem?_map, List.getElem?_idxOf hname]
  rfl

end Row

namespace Relation

section Columns

/-- Leaving out names and leaving out repetitions can be done in either order. -/
theorem eraseDups_filter
    (names : Row)
    (keep : String → Bool) :
    (names.filter keep).eraseDups = names.eraseDups.filter keep := by
  -- The first name is erased from what follows, so the induction is on the length.
  induction hlength : names.length using Nat.strongRecOn generalizing names with
  | ind n ih =>
      cases names with
      | nil => rfl
      | cons name rest =>
          subst hlength
          have hothers := ih _ (Nat.lt_succ_of_le (List.length_filter_le _ rest))
            (rest.filter fun other => !other == name) rfl
          rw [List.eraseDups_cons]
          cases hname : keep name with
          | true =>
              rw [List.filter_cons_of_pos hname, List.filter_cons_of_pos hname,
                List.eraseDups_cons, ← hothers, List.filter_comm]
          | false =>
              rw [List.filter_cons_of_neg (Bool.eq_false_iff.1 hname),
                List.filter_cons_of_neg (Bool.eq_false_iff.1 hname), ← hothers,
                List.filter_filter]
              refine congrArg List.eraseDups (List.filter_congr fun other _ => ?_)
              by_cases heq : other = name
              · simp [heq, hname]
              · simp [heq]

/-- The columns of two projections are those of one projection onto the names that both targets
have. -/
theorem projectedSchema_projectedSchema (schema first second : Row) :
    projectedSchema (projectedSchema schema first) second =
      projectedSchema schema (second.filter fun name => first.contains name) := by
  unfold projectedSchema
  rw [eraseDups_filter, List.filter_filter]
  refine List.filter_congr fun name _ => ?_
  rw [Bool.eq_iff_iff, Bool.and_eq_true, List.contains_iff_mem, List.mem_filter,
    List.mem_eraseDups, List.contains_iff_mem, List.contains_iff_mem]
  exact and_comm

end Columns

section Values

variable {r : Relation}

/-- The rows of a projection are the values under its columns. -/
theorem WellFormed.mem_project_iff
    (h : r.WellFormed)
    {target row : Row} :
    row ∈ (r.project target).rows ↔
      projectedSchema r.schema target ≠ [] ∧
        ∃ source ∈ r.rows,
          row = (projectedSchema r.schema target).map (Row.under r.schema source) := by
  have hcolumns : ∀ name ∈ projectedSchema r.schema target, name ∈ r.schema :=
    fun name hname => (mem_projectedSchema.1 hname).2
  rw [mem_project, pickedPositions, positions_eq hcolumns]
  refine and_congr_right fun _ => exists_congr fun source => and_congr_right fun hsource => ?_
  rw [Row.gather?_map fun name hname =>
    Row.getElem?_idxOf_eq_under (hcolumns name hname) (h source hsource), Option.some.injEq]
  exact eq_comm

/-- Two projections in a row are one projection onto the names that both targets have. -/
theorem WellFormed.project_project
    (h : r.WellFormed)
    (first second : Row) :
    (r.project first).project second =
      r.project (second.filter fun name => first.contains name) := by
  have hschema := projectedSchema_projectedSchema r.schema first second
  refine eq_of_mem_iff rfl hschema fun row => ?_
  rw [(wellFormed_project r first).mem_project_iff, h.mem_project_iff, ← hschema]
  change projectedSchema (projectedSchema r.schema first) second ≠ [] ∧ _ ↔ _
  refine and_congr_right fun hne => ?_
  -- A column of the second projection is one of the first, which has columns and rows, too.
  have hmem : ∀ name ∈ projectedSchema (projectedSchema r.schema first) second,
      name ∈ projectedSchema r.schema first :=
    fun name hname => (mem_projectedSchema.1 hname).2
  have hne' : projectedSchema r.schema first ≠ [] := by
    obtain ⟨name, hname⟩ := List.exists_mem_of_ne_nil _ hne
    exact List.ne_nil_of_mem (hmem name hname)
  have hvalues (source : Row) :
      (projectedSchema (projectedSchema r.schema first) second).map
          (Row.under (projectedSchema r.schema first)
            ((projectedSchema r.schema first).map (Row.under r.schema source))) =
        (projectedSchema (projectedSchema r.schema first) second).map
          (Row.under r.schema source) :=
    List.map_congr_left fun name hname => Row.under_map (hmem name hname)
  constructor
  · rintro ⟨middle, hmiddle, rfl⟩
    obtain ⟨_, source, hsource, rfl⟩ := h.mem_project_iff.1 hmiddle
    exact ⟨source, hsource, hvalues source⟩
  · rintro ⟨source, hsource, rfl⟩
    exact ⟨_, h.mem_project_iff.2 ⟨hne', source, hsource, rfl⟩, (hvalues source).symm⟩

/-- A projection onto the whole schema loses what repeats a column name and, where there is no
column, all rows; it loses nothing else. -/
theorem WellFormed.project_schema_iff
    (h : r.WellFormed) :
    r.project r.schema = r ↔ r.schema.Nodup ∧ (r.schema = [] → r.rows = ∅) := by
  constructor
  · intro heq
    constructor
    · have hschema : projectedSchema r.schema r.schema = r.schema := congrArg schema heq
      rw [← hschema]
      exact nodup_projectedSchema r.schema r.schema
    · intro hnil
      rw [← heq]
      refine OrderedSet.ext_mem fun row => iff_of_false ?_ (OrderedSet.not_mem_empty row)
      rw [mem_project, hnil]
      exact fun hrow => hrow.1 rfl
  · rintro ⟨hnodup, hempty⟩
    have hclean : r.Clean := ⟨hnodup, h⟩
    have hschema : projectedSchema r.schema r.schema = r.schema :=
      projectedSchema_eq hnodup fun _ hname => hname
    refine eq_of_mem_iff rfl hschema fun row => ?_
    rw [hclean.mem_project_iff, hschema]
    constructor
    · rintro ⟨_, v, hv, rfl⟩
      exact hv
    · intro hrow
      obtain ⟨v, hv, rfl⟩ := hclean.exists_admits hrow
      refine ⟨fun hnil => ?_, v, hv, rfl⟩
      rw [hempty hnil] at hrow
      exact OrderedSet.not_mem_empty _ hrow

end Values

/-- Projecting onto one target and then onto another is projecting onto the names of the second one
that the first one has; in particular a second projection onto the same target changes nothing.
The projection onto the own schema changes nothing where the columns have different names and there
is one at all. -/
theorem projection_laws
    (r : Relation)
    (h : r.WellFormed) :
    (∀ first second : Row,
      (r.project first).project second =
        r.project (second.filter fun name => first.contains name)) ∧
    (∀ target : Row, (r.project target).project target = r.project target) ∧
    (r.schema.Nodup → r.schema ≠ [] → r.project r.schema = r) := by
  refine ⟨h.project_project, fun target => ?_, fun hnodup hne => ?_⟩
  · rw [h.project_project]
    refine congrArg r.project (List.filter_eq_self.2 fun name hname => ?_)
    exact List.contains_iff_mem.2 hname
  · exact h.project_schema_iff.2 ⟨hnodup, fun hnil => absurd hnil hne⟩

/-- A relation whose schema repeats a name. -/
def mirrored : Relation :=
  ((empty "R" ["a", "b", "a"]).insert ["'1'", "'2'", "'3'"]).insert ["'1'", "'4'", "'5'"]

/-- A relation whose schema repeats no name. -/
def paired : Relation :=
  mirrored.project ["b", "z", "a", "b"]

/-- The first target leaves the columns `b` and `a`, the second one turns them around. -/
theorem projection_laws_mirrored :
    mirrored.WellFormed ∧
    paired.project ["a", "c", "b", "a"] = mirrored.project ["a", "b", "a"] ∧
    (mirrored.project ["a", "b", "a"]).rows.toList = [["'1'", "'2'"], ["'1'", "'4'"]] ∧
    paired.WellFormed ∧ paired.schema.Nodup ∧ paired.schema ≠ [] ∧
    paired.project paired.schema = paired := by
  have hmirrored : mirrored.WellFormed := ((wellFormed_empty _ _).insert _).insert _
  have hpaired : paired.WellFormed := wellFormed_project _ _
  have hnodup : paired.schema.Nodup := nodup_projectedSchema _ _
  have hne : paired.schema ≠ [] := by decide
  exact ⟨hmirrored, (projection_laws mirrored hmirrored).1 ["b", "z", "a", "b"] _, by cbv,
    hpaired, hnodup, hne, (projection_laws paired hpaired).2.2 hnodup hne⟩

end Relation

end Projecting

end Datalog
