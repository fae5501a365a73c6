import Datalog.Proofs.Algebra.Rows
import Mathlib.Data.List.Nodup
import Mathlib.Data.List.Perm.Subperm

/-!
# Relations as sets of valuations

**View.** Where the columns have different names, a row is a valuation of the names, and a relation
`Admits` the valuations whose values at its columns are one of its rows.

**Results.** In this view a join admits what both sides admit, whatever the order of the columns,
and a projection onto names takes the values of these names.  `Clean` relations, with different
column names and rows of the right length, are closed under both.
-/

namespace Datalog

section Valuation

namespace Row

/-- A row under different names is given by a valuation of the names. -/
theorem exists_valuation
    {schema row : Row}
    (hnodup : schema.Nodup)
    (hlength : row.length = schema.length) :
    ∃ v : String → String, row = schema.map v := by
  induction schema generalizing row with
  | nil => exact ⟨id, List.length_eq_zero_iff.1 hlength⟩
  | cons column rest ih =>
      obtain ⟨hcolumn, hrest⟩ := List.nodup_cons.1 hnodup
      cases row with
      | nil => cases hlength
      | cons value row =>
          obtain ⟨v, hv⟩ := ih hrest (Nat.succ.inj hlength)
          refine ⟨fun name => if name = column then value else v name, ?_⟩
          have hsame : rest.map (fun name => if name = column then value else v name) =
              rest.map v := by
            refine List.map_congr_left fun name hname => if_neg ?_
            rintro rfl
            exact hcolumn hname
          rw [List.map_cons, if_pos rfl, hsame, hv]

theorem gather?_map
    {α : Type} {row : Row} {l : List α} {position : α → Nat} {value : α → String}
    (h : ∀ a ∈ l, row[position a]? = some (value a)) :
    row.gather? (l.map position) = some (l.map value) := by
  rw [gather?_eq_some_iff, List.forall₂_map_left_iff, List.forall₂_map_right_iff,
    List.forall₂_same]
  exact h

end Row

namespace Relation

section Positions

theorem idxOf?_of_mem
    {schema : Row} {name : String}
    (h : name ∈ schema) :
    schema.idxOf? name = some (schema.idxOf name) := by
  induction schema with
  | nil => cases h
  | cons column rest ih =>
      rw [List.idxOf?_cons, List.idxOf_cons]
      by_cases heq : column = name
      · simp [heq]
      · have hname : name ∈ rest := (List.mem_cons.1 h).resolve_left fun hn => heq hn.symm
        have hbeq : (column == name) = false := beq_eq_false_iff_ne.2 heq
        simp [hbeq, ih hname]

theorem positions_eq
    {schema names : Row}
    (h : ∀ name ∈ names, name ∈ schema) :
    positions schema names = names.map schema.idxOf := by
  unfold positions
  induction names with
  | nil => rfl
  | cons name rest ih =>
      rw [List.filterMap_cons, idxOf?_of_mem (h name List.mem_cons_self), List.map_cons]
      exact congrArg _ (ih fun other hother => h other (List.mem_cons_of_mem _ hother))

/-- Looking up names in the row of a valuation gives the values of the names. -/
theorem gather?_positions
    {schema names : Row}
    (h : ∀ name ∈ names, name ∈ schema)
    (v : String → String) :
    Row.gather? (schema.map v) (positions schema names) = some (names.map v) := by
  rw [positions_eq h]
  refine Row.gather?_map fun name hname => ?_
  rw [List.getElem?_map, List.getElem?_idxOf (h name hname)]
  rfl

theorem mem_sharedColumns
    {left right : Row} {pair : Nat × Nat} :
    pair ∈ sharedColumns left right ↔
      ∃ column, left[pair.1]? = some column ∧ right.idxOf? column = some pair.2 := by
  obtain ⟨i, j⟩ := pair
  unfold sharedColumns
  rw [List.mem_filterMap]
  constructor
  · rintro ⟨⟨column, i'⟩, hmem, hmap⟩
    obtain ⟨j', hj, heq⟩ := Option.map_eq_some_iff.1 hmap
    cases heq
    exact ⟨column, List.mk_mem_zipIdx_iff_getElem?.1 hmem, hj⟩
  · rintro ⟨column, hcolumn, hj⟩
    refine ⟨(column, i), List.mk_mem_zipIdx_iff_getElem?.2 hcolumn, ?_⟩
    change (right.idxOf? column).map (fun j => (i, j)) = some (i, j)
    rw [hj]
    rfl

/-- The name of a shared column. -/
def sharedName (left : Row) (pair : Nat × Nat) : String :=
  left.getD pair.1 ""

theorem getElem?_shared
    {left right : Row} {pair : Nat × Nat}
    (h : pair ∈ sharedColumns left right) :
    left[pair.1]? = some (sharedName left pair) ∧
      right[pair.2]? = some (sharedName left pair) := by
  obtain ⟨column, hcolumn, hj⟩ := mem_sharedColumns.1 h
  have hname : sharedName left pair = column := by
    rw [sharedName, List.getD_eq_getElem?_getD, hcolumn]
    rfl
  have hmem : column ∈ right := by
    rw [← List.isSome_idxOf?, hj]
    rfl
  rw [idxOf?_of_mem hmem] at hj
  rw [hname, ← Option.some.inj hj]
  exact ⟨hcolumn, List.getElem?_idxOf hmem⟩

theorem gather?_shared_left
    (left right : Row)
    (v : String → String) :
    Row.gather? (left.map v) ((sharedColumns left right).map (·.1)) =
      some ((sharedColumns left right).map fun pair => v (sharedName left pair)) := by
  refine Row.gather?_map fun pair hpair => ?_
  rw [List.getElem?_map, (getElem?_shared hpair).1]
  rfl

theorem gather?_shared_right
    (left right : Row)
    (v : String → String) :
    Row.gather? (right.map v) ((sharedColumns left right).map (·.2)) =
      some ((sharedColumns left right).map fun pair => v (sharedName left pair)) := by
  refine Row.gather?_map fun pair hpair => ?_
  rw [List.getElem?_map, (getElem?_shared hpair).2]
  rfl

/-- A column that both sides have is a shared one. -/
theorem exists_shared
    {left right : Row} {column : String}
    (hleft : column ∈ left)
    (hright : column ∈ right) :
    ∃ pair ∈ sharedColumns left right, sharedName left pair = column := by
  refine ⟨(left.idxOf column, right.idxOf column), ?_, ?_⟩
  · exact mem_sharedColumns.2
      ⟨column, List.getElem?_idxOf hleft, idxOf?_of_mem hright⟩
  · rw [sharedName, List.getD_eq_getElem?_getD, List.getElem?_idxOf hleft]
    rfl

theorem gather?_added
    (left right : Row)
    (v : String → String) :
    Row.gather? (right.map v) (addedColumns left right) =
      some ((right.filter fun column => !left.contains column).map v) := by
  have hnames :
      (right.zipIdx.filter fun entry => !left.contains entry.1).map (fun entry => v entry.1) =
        (right.filter fun column => !left.contains column).map v := by
    rw [← map_fst_addedEntries, List.map_map]
    rfl
  rw [addedColumns_eq, ← hnames]
  refine Row.gather?_map fun entry hentry => ?_
  have hcolumn := List.mem_zipIdx_iff_getElem?.1 (List.mem_filter.1 hentry).1
  rw [List.getElem?_map, hcolumn]
  rfl

end Positions

/-- The columns have different names, and every row has one value for each column. -/
structure Clean (r : Relation) : Prop where
  nodup : r.schema.Nodup
  wellFormed : r.WellFormed

/-- The values of the columns are a row. -/
def Admits (r : Relation) (v : String → String) : Prop :=
  r.schema.map v ∈ r.rows

section Views

variable {l r : Relation}

theorem admits_congr
    {v w : String → String}
    (h : ∀ column ∈ r.schema, v column = w column) :
    r.Admits v ↔ r.Admits w := by
  unfold Admits
  rw [List.map_congr_left h]

theorem Clean.exists_admits
    (h : r.Clean)
    {row : Row}
    (hrow : row ∈ r.rows) :
    ∃ v, r.Admits v ∧ row = r.schema.map v := by
  obtain ⟨v, rfl⟩ := Row.exists_valuation h.nodup (h.wellFormed row hrow)
  exact ⟨v, hrow, rfl⟩

theorem schema_join (l r : Relation) :
    (l.join r).schema = joinedSchema l.schema r.schema :=
  rfl

theorem mem_joinedSchema
    {left right : Row} {column : String} :
    column ∈ joinedSchema left right ↔ column ∈ left ∨ column ∈ right := by
  unfold joinedSchema
  rw [List.mem_append, List.mem_filter]
  by_cases h : column ∈ left <;> simp [h]

theorem nodup_joinedSchema
    {left right : Row}
    (hleft : left.Nodup)
    (hright : right.Nodup) :
    (joinedSchema left right).Nodup := by
  unfold joinedSchema
  refine List.nodup_append.2 ⟨hleft, hright.filter _, ?_⟩
  rintro column hcolumn _ hother rfl
  have hnot := (List.mem_filter.1 hother).2
  simp [hcolumn] at hnot

theorem Clean.join
    (hl : l.Clean)
    (hr : r.Clean) :
    (l.join r).Clean where
  nodup := nodup_joinedSchema hl.nodup hr.nodup
  wellFormed := hl.wellFormed.join r

/-- Two valuations that agree on the shared columns are one on the columns of each side. -/
theorem exists_common_valuation
    {left right : Row} {v w : String → String}
    (h : ∀ column ∈ left, column ∈ right → v column = w column) :
    ∃ u : String → String,
      (∀ column ∈ left, u column = v column) ∧ ∀ column ∈ right, u column = w column := by
  -- The left side decides about its own columns, the right one about the others.
  refine ⟨fun column => if column ∈ left then v column else w column,
    fun column hleft => if_pos hleft, fun column hright => ?_⟩
  by_cases hleft : column ∈ left
  · exact (if_pos hleft).trans (h column hleft hright)
  · exact if_neg hleft

/-- The rows of a join are the rows of the valuations that both sides admit. -/
theorem mem_join_iff
    (hl : l.Clean)
    (hr : r.Clean)
    {row : Row} :
    row ∈ (l.join r).rows ↔
      ∃ v, l.Admits v ∧ r.Admits v ∧ row = (joinedSchema l.schema r.schema).map v := by
  rw [mem_join]
  constructor
  · rintro ⟨left, hleft, right, hright, key, added, hkey, hkey', hadded, rfl⟩
    obtain ⟨v, hv, rfl⟩ := hl.exists_admits hleft
    obtain ⟨w, hw, rfl⟩ := hr.exists_admits hright
    rw [gather?_shared_left, Option.some.injEq] at hkey
    rw [gather?_shared_right, Option.some.injEq] at hkey'
    rw [gather?_added, Option.some.injEq] at hadded
    have hagree : ∀ column ∈ l.schema, column ∈ r.schema → v column = w column := by
      intro column hinl hinr
      obtain ⟨pair, hpair, rfl⟩ := exists_shared hinl hinr
      exact List.map_inj_left.1 (hkey.trans hkey'.symm) pair hpair
    obtain ⟨u, huv, huw⟩ := exists_common_valuation hagree
    refine ⟨u, (admits_congr huv).2 hv, (admits_congr huw).2 hw, ?_⟩
    rw [joinedSchema, List.map_append, List.map_congr_left huv, ← hadded]
    refine congrArg _ (List.map_congr_left fun column hcolumn => ?_)
    exact (huw column (List.mem_filter.1 hcolumn).1).symm
  · rintro ⟨v, hv, hw, rfl⟩
    refine ⟨_, hv, _, hw, _, _, gather?_shared_left _ _ v, gather?_shared_right _ _ v,
      gather?_added _ _ v, ?_⟩
    rw [joinedSchema, List.map_append]

/-- A join admits what both sides admit. -/
theorem admits_join
    (hl : l.Clean)
    (hr : r.Clean)
    {v : String → String} :
    (l.join r).Admits v ↔ l.Admits v ∧ r.Admits v := by
  have hrow : (l.join r).Admits v ↔
      ∃ w, l.Admits w ∧ r.Admits w ∧
        (joinedSchema l.schema r.schema).map v = (joinedSchema l.schema r.schema).map w :=
    mem_join_iff hl hr
  rw [hrow]
  constructor
  · rintro ⟨w, hlw, hrw, heq⟩
    have hsame := List.map_inj_left.1 heq
    have hleft : ∀ column ∈ l.schema, v column = w column := fun column hcolumn =>
      hsame column (mem_joinedSchema.2 (Or.inl hcolumn))
    have hright : ∀ column ∈ r.schema, v column = w column := fun column hcolumn =>
      hsame column (mem_joinedSchema.2 (Or.inr hcolumn))
    exact ⟨(admits_congr hleft).2 hlw, (admits_congr hright).2 hrw⟩
  · rintro ⟨hlv, hrv⟩
    exact ⟨v, hlv, hrv, rfl⟩

/-- The joins of a list of relations admit what all of them admit, under the names of all of
them. -/
theorem foldl_join
    {first : Relation} {rest : List Relation}
    (hfirst : first.Clean)
    (hrest : ∀ r ∈ rest, r.Clean) :
    (rest.foldl Relation.join first).Clean ∧
      (∀ column, column ∈ (rest.foldl Relation.join first).schema ↔
        ∃ r ∈ first :: rest, column ∈ r.schema) ∧
      ∀ v, (rest.foldl Relation.join first).Admits v ↔ ∀ r ∈ first :: rest, r.Admits v := by
  induction rest generalizing first with
  | nil => simp [hfirst]
  | cons r rest ih =>
      have hr := hrest r List.mem_cons_self
      obtain ⟨hclean, hschema, hadmits⟩ :=
        ih (hfirst.join hr) fun s hs => hrest s (List.mem_cons_of_mem _ hs)
      refine ⟨hclean, fun column => ?_, fun v => ?_⟩
      · rw [List.foldl_cons, hschema]
        simp [schema_join, mem_joinedSchema, or_assoc]
      · rw [List.foldl_cons, hadmits]
        simp [admits_join hfirst hr, and_assoc]

theorem nodup_eraseDups (names : Row) :
    names.eraseDups.Nodup := by
  -- Each name is kept in front of what is left without it.
  induction hlength : names.length using Nat.strongRecOn generalizing names with
  | ind n ih =>
      cases names with
      | nil => exact List.nodup_nil
      | cons name rest =>
          subst hlength
          rw [List.eraseDups_cons, List.nodup_cons]
          constructor
          · simp
          · exact ih _ (Nat.lt_succ_of_le (List.length_filter_le _ rest)) _ rfl

theorem eraseDups_of_nodup
    {names : Row}
    (h : names.Nodup) :
    names.eraseDups = names := by
  induction names with
  | nil => rfl
  | cons name rest ih =>
      obtain ⟨hname, hrest⟩ := List.nodup_cons.1 h
      have hothers : rest.filter (fun other => !other == name) = rest := by
        rw [List.filter_eq_self]
        rintro other hother
        have hne : other ≠ name := by
          rintro rfl
          exact hname hother
        simpa using hne
      rw [List.eraseDups_cons, hothers, ih hrest]

/-- No name is lost exactly if none is repeated. -/
theorem length_eraseDups_eq_iff
    {names : Row} :
    names.eraseDups.length = names.length ↔ names.Nodup := by
  constructor
  · intro hlength
    have hsubperm : names.eraseDups.Subperm names :=
      List.subperm_of_subset (nodup_eraseDups names) fun name hname => List.mem_eraseDups.1 hname
    have hperm := hsubperm.perm_of_length_le (Nat.le_of_eq hlength.symm)
    exact hperm.nodup_iff.1 (nodup_eraseDups names)
  · intro hnodup
    rw [eraseDups_of_nodup hnodup]

theorem nodup_projectedSchema (schema target : Row) :
    (projectedSchema schema target).Nodup := by
  unfold projectedSchema
  exact (nodup_eraseDups target).filter _

/-- A projection onto names that are columns keeps each of these names once. -/
theorem projectedSchema_eq_eraseDups
    {schema target : Row}
    (h : ∀ name ∈ target, name ∈ schema) :
    projectedSchema schema target = target.eraseDups := by
  unfold projectedSchema
  rw [List.filter_eq_self]
  exact fun name hname => by simpa using h name (List.mem_eraseDups.1 hname)

theorem projectedSchema_eq
    {schema target : Row}
    (hnodup : target.Nodup)
    (h : ∀ name ∈ target, name ∈ schema) :
    projectedSchema schema target = target := by
  rw [projectedSchema_eq_eraseDups h, eraseDups_of_nodup hnodup]

theorem clean_project (r : Relation) (target : Row) :
    (r.project target).Clean where
  nodup := nodup_projectedSchema r.schema target
  wellFormed := wellFormed_project r target

theorem nodup_renameSchema
    (h : r.schema.Nodup)
    (names : Row) :
    (r.renameSchema names).schema.Nodup := by
  simp only [renameSchema]
  split
  · rename_i hdistinct
    exact (Row.isDistinct_iff _).1 hdistinct
  · exact h

theorem Clean.renameSchema
    (h : r.Clean)
    (names : Row) :
    (r.renameSchema names).Clean where
  nodup := nodup_renameSchema h.nodup names
  wellFormed := h.wellFormed.renameSchema names

/-- The rows of a projection are the values that the admitted valuations give to its columns. -/
theorem Clean.mem_project_iff
    (h : r.Clean)
    {target row : Row} :
    row ∈ (r.project target).rows ↔
      projectedSchema r.schema target ≠ [] ∧
        ∃ v, r.Admits v ∧ row = (projectedSchema r.schema target).map v := by
  have hcolumns : ∀ name ∈ projectedSchema r.schema target, name ∈ r.schema :=
    fun name hname => (mem_projectedSchema.1 hname).2
  rw [mem_project, pickedPositions]
  refine and_congr_right fun _ => ?_
  constructor
  · rintro ⟨source, hsource, hgather⟩
    obtain ⟨v, hv, rfl⟩ := h.exists_admits hsource
    rw [gather?_positions hcolumns, Option.some.injEq] at hgather
    exact ⟨v, hv, hgather.symm⟩
  · rintro ⟨v, hv, rfl⟩
    exact ⟨_, hv, gather?_positions hcolumns v⟩

end Views

section Naming

/-- Names that are not empty take the place of the columns, as many of them as there are columns. -/
theorem overlay_eq_take
    {columns names : Row}
    (hlength : columns.length ≤ names.length)
    (hnames : ∀ name ∈ names, name ≠ "") :
    overlay columns names = names.take columns.length := by
  induction columns generalizing names with
  | nil => rfl
  | cons column rest ih =>
      cases names with
      | nil => cases hlength
      | cons name names =>
          have hrest := ih (Nat.le_of_succ_le_succ hlength) fun other hother =>
            hnames other (List.mem_cons_of_mem _ hother)
          rw [overlay, if_neg (hnames name List.mem_cons_self), hrest, List.length_cons,
            List.take_succ_cons]

/-- Renaming the whole schema to different names that are not empty keeps as many of them as there
are columns. -/
theorem renameSchema_eq
    {r : Relation} {names : Row}
    (hlength : r.schema.length ≤ names.length)
    (hnames : ∀ name ∈ names, name ≠ "")
    (hnodup : names.Nodup) :
    r.renameSchema names = { r with schema := names.take r.schema.length } := by
  have hdistinct : Row.isDistinct (names.take r.schema.length) = true :=
    (Row.isDistinct_iff _).2 (hnodup.sublist (List.take_sublist _ _))
  simp only [renameSchema, overlay_eq_take hlength hnames, hdistinct, if_true]

theorem schema_renameSchema
    {r : Relation} {names : Row}
    (hlength : names.length = r.schema.length)
    (hnames : ∀ name ∈ names, name ≠ "")
    (hnodup : names.Nodup) :
    (r.renameSchema names).schema = names := by
  rw [renameSchema_eq (Nat.le_of_eq hlength.symm) hnames hnodup, ← hlength]
  exact List.take_length

end Naming

end Relation

end Valuation

end Datalog
