import Datalog.Proofs.Algebra.Valuation

/-!
# Joins by column names

**Reading.** A value of a row is read under a schema by the name of its column.  A row `Covers`
another one if it has the values of the other one at all columns of the other schema, wherever
these columns stand in its own.

**Results.** A join has the columns of the left side and then those that only the right side has.
Its rows are the rows of that length that cover a left row and a right row.  So any two rows that
agree on the shared columns make exactly one row, and no row comes from anything else.
-/

namespace Datalog

section Joining

namespace Row

/-- The value of a row at a column, found by the name. -/
def valueAt? (schema row : Row) (column : String) : Option String :=
  (schema.zip row).lookup column

/-- The row has, at the columns of another schema, the values of the other row. -/
def Covers (schema row part values : Row) : Prop :=
  part.map (valueAt? schema row) = values.map some

/-- Two rows have the same values at the columns that both schemas have. -/
def AgreeOnShared (schema row schema' row' : Row) : Prop :=
  ∀ column ∈ schema, column ∈ schema' →
    valueAt? schema row column = valueAt? schema' row' column

theorem valueAt?_map
    {schema : Row} {column : String}
    (h : column ∈ schema)
    (v : String → String) :
    valueAt? schema (schema.map v) column = some (v column) := by
  unfold valueAt?
  induction schema with
  | nil => cases h
  | cons name rest ih =>
      rw [List.map_cons, List.zip_cons_cons, List.lookup_cons]
      by_cases heq : column = name
      · simp [heq]
      · have hrest : column ∈ rest := (List.mem_cons.1 h).resolve_left heq
        have hbeq : (column == name) = false := beq_eq_false_iff_ne.2 heq
        rw [hbeq]
        exact ih hrest

/-- The row of a valuation covers exactly the row of that valuation under a part of its schema. -/
theorem covers_map_iff
    {schema part values : Row}
    (h : ∀ column ∈ part, column ∈ schema)
    (v : String → String) :
    Covers schema (schema.map v) part values ↔ values = part.map v := by
  have hread : part.map (valueAt? schema (schema.map v)) = (part.map v).map some := by
    rw [List.map_map]
    exact List.map_congr_left fun column hcolumn => valueAt?_map (h column hcolumn) v
  unfold Covers
  rw [hread, List.map_inj_right fun _ _ => Option.some.inj]
  exact eq_comm

theorem agreeOnShared_map_iff
    {schema schema' : Row} {v w : String → String} :
    AgreeOnShared schema (schema.map v) schema' (schema'.map w) ↔
      ∀ column ∈ schema, column ∈ schema' → v column = w column := by
  refine forall_congr' fun column => imp_congr_right fun hleft => imp_congr_right fun hright => ?_
  rw [valueAt?_map hleft, valueAt?_map hright, Option.some.injEq]

end Row

namespace Relation

section Natural

variable {l r : Relation}

/-- A relation admits a valuation if the valuation's row under any larger schema covers a row of
it. -/
theorem admits_iff_exists_covered
    {schema : Row}
    (h : ∀ column ∈ r.schema, column ∈ schema)
    (v : String → String) :
    r.Admits v ↔ ∃ row ∈ r.rows, Row.Covers schema (schema.map v) r.schema row := by
  simp only [Row.covers_map_iff h, exists_eq_right]
  exact Iff.rfl

theorem mem_joinedSchema_of_left
    {left right : Row} :
    ∀ column ∈ left, column ∈ joinedSchema left right :=
  fun _ h => mem_joinedSchema.2 (Or.inl h)

theorem mem_joinedSchema_of_right
    {left right : Row} :
    ∀ column ∈ right, column ∈ joinedSchema left right :=
  fun _ h => mem_joinedSchema.2 (Or.inr h)

/-- A row with one value for each column of a join is a row of the join if it covers a row of each
side. -/
theorem mem_join_iff_covers
    (hl : l.Clean)
    (hr : r.Clean)
    {row : Row}
    (hlength : row.length = (joinedSchema l.schema r.schema).length) :
    row ∈ (l.join r).rows ↔
      (∃ left ∈ l.rows, Row.Covers (joinedSchema l.schema r.schema) row l.schema left) ∧
        ∃ right ∈ r.rows, Row.Covers (joinedSchema l.schema r.schema) row r.schema right := by
  obtain ⟨v, rfl⟩ := Row.exists_valuation (nodup_joinedSchema hl.nodup hr.nodup) hlength
  rw [← admits_iff_exists_covered mem_joinedSchema_of_left v,
    ← admits_iff_exists_covered mem_joinedSchema_of_right v]
  exact admits_join hl hr

/-- Two rows that agree on the shared columns make exactly one row of the join. -/
theorem existsUnique_mem_join
    (hl : l.Clean)
    (hr : r.Clean)
    {left right : Row}
    (hleft : left ∈ l.rows)
    (hright : right ∈ r.rows)
    (hagree : Row.AgreeOnShared l.schema left r.schema right) :
    ∃! row, row ∈ (l.join r).rows ∧
      Row.Covers (joinedSchema l.schema r.schema) row l.schema left ∧
      Row.Covers (joinedSchema l.schema r.schema) row r.schema right := by
  obtain ⟨v, hv, rfl⟩ := hl.exists_admits hleft
  obtain ⟨w, hw, rfl⟩ := hr.exists_admits hright
  obtain ⟨u, hul, hur⟩ := exists_common_valuation (Row.agreeOnShared_map_iff.1 hagree)
  have hadmits : (l.join r).Admits u :=
    (admits_join hl hr).2 ⟨(admits_congr hul).2 hv, (admits_congr hur).2 hw⟩
  have hcovers :
      Row.Covers (joinedSchema l.schema r.schema) ((joinedSchema l.schema r.schema).map u)
          l.schema (l.schema.map v) ∧
        Row.Covers (joinedSchema l.schema r.schema) ((joinedSchema l.schema r.schema).map u)
          r.schema (r.schema.map w) :=
    ⟨(Row.covers_map_iff mem_joinedSchema_of_left u).2 (List.map_congr_left hul).symm,
      (Row.covers_map_iff mem_joinedSchema_of_right u).2 (List.map_congr_left hur).symm⟩
  refine ⟨(joinedSchema l.schema r.schema).map u, ⟨hadmits, hcovers⟩, ?_⟩
  rintro row ⟨hrow, hcoversLeft, hcoversRight⟩
  obtain ⟨x, _, rfl⟩ := (hl.join hr).exists_admits hrow
  have hxl := (Row.covers_map_iff mem_joinedSchema_of_left x).1 hcoversLeft
  have hxr := (Row.covers_map_iff mem_joinedSchema_of_right x).1 hcoversRight
  rw [List.map_inj_left] at hxl hxr
  refine List.map_congr_left fun column hcolumn => ?_
  rcases mem_joinedSchema.1 hcolumn with hcolumn | hcolumn
  · exact ((hul column hcolumn).trans (hxl column hcolumn)).symm
  · exact ((hur column hcolumn).trans (hxr column hcolumn)).symm

end Natural

/-- Join under different column names.  The columns of the left side come first, in their order,
then those that only the right side has, in theirs.  A row of that length belongs to the join if its
values at the columns of each side, looked up by name, are a row of that side.  Each pair of rows
that agree on the shared columns makes exactly one row, and each row is made by such a pair. -/
theorem rows_of_join
    {l r : Relation}
    (hl : l.Clean)
    (hr : r.Clean) :
    let columns := l.schema ++ r.schema.filter fun column => !l.schema.contains column
    (l.join r).schema = columns ∧
      (∀ row ∈ (l.join r).rows, row.length = columns.length) ∧
      (∀ row, row.length = columns.length →
        (row ∈ (l.join r).rows ↔
          (∃ left ∈ l.rows, Row.Covers columns row l.schema left) ∧
            ∃ right ∈ r.rows, Row.Covers columns row r.schema right)) ∧
      ∀ left ∈ l.rows, ∀ right ∈ r.rows, Row.AgreeOnShared l.schema left r.schema right →
        ∃! row, row ∈ (l.join r).rows ∧ Row.Covers columns row l.schema left ∧
          Row.Covers columns row r.schema right := by
  intro columns
  refine ⟨rfl, (hl.join hr).wellFormed, fun row hlength => ?_, fun left hleft right hright => ?_⟩
  · exact mem_join_iff_covers hl hr hlength
  · exact existsUnique_mem_join hl hr hleft hright

/-- Two columns are shared in another order, and the right row agrees with one of the left rows. -/
theorem rows_of_reorderedJoin :
    let left := ((empty "L" ["a", "b", "c"]).insert ["'1'", "'2'", "'3'"]).insert
      ["'1'", "'3'", "'2'"]
    let right := (empty "R" ["d", "b", "a"]).insert ["'4'", "'2'", "'1'"]
    left.Clean ∧ right.Clean ∧
      (left.join right).schema = ["a", "b", "c", "d"] ∧
      (["'1'", "'2'", "'3'", "'4'"] ∈ (left.join right).rows ↔
        (∃ row ∈ left.rows, Row.Covers ["a", "b", "c", "d"] ["'1'", "'2'", "'3'", "'4'"]
          ["a", "b", "c"] row) ∧
        ∃ row ∈ right.rows, Row.Covers ["a", "b", "c", "d"] ["'1'", "'2'", "'3'", "'4'"]
          ["d", "b", "a"] row) := by
  intro left right
  have hleft : left.Clean := ⟨by decide, (((Built.empty _ _).insert _).insert _).wellFormed⟩
  have hright : right.Clean := ⟨by decide, ((Built.empty _ _).insert _).wellFormed⟩
  obtain ⟨hschema, _, hrows, _⟩ := rows_of_join hleft hright
  exact ⟨hleft, hright, hschema, hrows ["'1'", "'2'", "'3'", "'4'"] rfl⟩

end Relation

end Joining

end Datalog
