import Datalog.Proofs.Algebra.Valuation

/-!
# Matching as substitution

**Instances.** Under a valuation of texts, a constant stands for itself and every other term for its
value.  A row `Fits` terms if it has at each column what the term there stands for; terms beyond the
last column and columns beyond the last term are free.

**Results.** The relation that matching gives has one column for each variable and admits the
valuations that some row fits.  Where there are as many terms as columns, the row that fits is the
instance of the predicate.
-/

namespace Datalog

section Matching

/-- What a term stands for under a valuation. -/
def termValue (v : String → String) (term : String) : String :=
  if TermKind.isConstant term then term else v term

/-- The row that a predicate stands for under a valuation. -/
def Predicate.ground (v : String → String) (predicate : Predicate) : Row :=
  predicate.terms.map (termValue v)

theorem termValue_of_isConstant
    {v : String → String} {term : String}
    (h : TermKind.isConstant term = true) :
    termValue v term = term :=
  if_pos h

theorem termValue_of_not_isConstant
    {v : String → String} {term : String}
    (h : TermKind.isConstant term = false) :
    termValue v term = v term := by
  rw [termValue, h]
  rfl

namespace Matching

section Terms

variable {terms : List String} {v : String → String} {arity : Nat}

theorem mem_constants
    {filter : Nat × String} :
    filter ∈ constants terms ↔
      terms[filter.1]? = some filter.2 ∧ TermKind.isConstant filter.2 = true := by
  obtain ⟨column, term⟩ := filter
  unfold constants
  rw [List.mem_filterMap]
  constructor
  · rintro ⟨⟨term', column'⟩, hmem, hif⟩
    obtain ⟨hconstant, heq⟩ := Option.ite_none_right_eq_some.1 hif
    cases heq
    exact ⟨List.mk_mem_zipIdx_iff_getElem?.1 hmem, hconstant⟩
  · rintro ⟨hterm, hconstant⟩
    exact ⟨(term, column), List.mk_mem_zipIdx_iff_getElem?.2 hterm, if_pos hconstant⟩

theorem mem_repetitions
    {pair : Nat × Nat} :
    pair ∈ repetitions terms ↔
      ∃ term, terms[pair.2]? = some term ∧ TermKind.isConstant term = false ∧
        pair.1 = terms.idxOf term := by
  obtain ⟨first, column⟩ := pair
  unfold repetitions
  rw [List.mem_filterMap]
  constructor
  · rintro ⟨⟨term, column'⟩, hmem, hif⟩
    have hterm := List.mk_mem_zipIdx_iff_getElem?.1 hmem
    obtain ⟨hvariable, hmap⟩ := Option.ite_none_left_eq_some.1 hif
    rw [Relation.idxOf?_of_mem (List.mem_of_getElem? hterm)] at hmap
    cases hmap
    exact ⟨term, hterm, Bool.eq_false_iff.2 hvariable, rfl⟩
  · rintro ⟨term, hterm, hvariable, hfirst⟩
    refine ⟨(term, column), List.mk_mem_zipIdx_iff_getElem?.2 hterm, ?_⟩
    simp only [hvariable, Bool.false_eq_true, if_false,
      Relation.idxOf?_of_mem (List.mem_of_getElem? hterm), Option.map_some, Option.some.injEq,
      Prod.mk.injEq, and_true]
    exact hfirst.symm

/-- The variables at the columns of a relation are those that first occur at one. -/
theorem mem_variableNames
    {name : String} :
    name ∈ variableNames arity terms ↔
      name ∈ terms ∧ TermKind.isConstant name = false ∧ terms.idxOf name < arity := by
  unfold variableNames
  rw [List.mem_eraseDups, List.mem_filter, Bool.not_eq_true']
  constructor
  · rintro ⟨htake, hvariable⟩
    have hname := List.mem_of_mem_take htake
    exact ⟨hname, hvariable, (List.mem_take_iff_idxOf_lt hname).1 htake⟩
  · rintro ⟨hname, hvariable, hlt⟩
    exact ⟨(List.mem_take_iff_idxOf_lt hname).2 hlt, hvariable⟩

theorem mem_variableNames_of_getElem?
    {name : String} {i : Nat}
    (hname : terms[i]? = some name)
    (hvariable : TermKind.isConstant name = false)
    (hi : i < arity) :
    name ∈ variableNames arity terms := by
  unfold variableNames
  rw [List.mem_eraseDups, List.mem_filter, Bool.not_eq_true']
  refine ⟨List.mem_of_getElem? (i := i) ?_, hvariable⟩
  rw [List.getElem?_take_of_lt hi, hname]

theorem nodup_variableNames (arity : Nat) (terms : List String) :
    (variableNames arity terms).Nodup :=
  Relation.nodup_eraseDups _

/-- A row has at each of its columns what the term there stands for. -/
def Fits (v : String → String) (terms : List String) (row : Row) : Prop :=
  ∀ i term, terms[i]? = some term → i < row.length → row[i]? = some (termValue v term)

/-- A row fits terms if it passes both selections and has the value of each variable at its first
column. -/
theorem fits_iff
    {row : Row} :
    Fits v terms row ↔
      ((∀ pair ∈ repetitions terms,
          pair.1 < row.length → pair.2 < row.length → row[pair.1]? = row[pair.2]?) ∧
        ∀ filter ∈ constants terms, filter.1 < row.length → row[filter.1]? = some filter.2) ∧
      ∀ name ∈ variableNames row.length terms, row[terms.idxOf name]? = some (v name) := by
  constructor
  · intro h
    refine ⟨⟨?_, ?_⟩, ?_⟩
    · intro pair hpair hfirst hcolumn
      obtain ⟨term, hterm, _, heq⟩ := mem_repetitions.1 hpair
      have hat := List.getElem?_idxOf (List.mem_of_getElem? hterm)
      rw [heq] at hfirst ⊢
      rw [h _ term hat hfirst, h _ term hterm hcolumn]
    · intro filter hfilter hcolumn
      obtain ⟨hterm, hconstant⟩ := mem_constants.1 hfilter
      rw [h _ _ hterm hcolumn, termValue_of_isConstant hconstant]
    · intro name hname
      obtain ⟨hmem, hvariable, hlt⟩ := mem_variableNames.1 hname
      rw [h _ name (List.getElem?_idxOf hmem) hlt, termValue_of_not_isConstant hvariable]
  · rintro ⟨⟨hrepetitions, hconstants⟩, hvariables⟩ i term hterm hi
    cases hkind : TermKind.isConstant term with
    | true =>
        rw [termValue_of_isConstant hkind]
        exact hconstants (i, term) (mem_constants.2 ⟨hterm, hkind⟩) hi
    | false =>
        have hname := mem_variableNames_of_getElem? hterm hkind hi
        have hpair : (terms.idxOf term, i) ∈ repetitions terms :=
          mem_repetitions.2 ⟨term, hterm, hkind, rfl⟩
        rw [termValue_of_not_isConstant hkind, ← hvariables term hname]
        exact (hrepetitions (terms.idxOf term, i) hpair (mem_variableNames.1 hname).2.2 hi).symm

theorem fits_nil (v : String → String) (row : Row) :
    Fits v [] row := by
  intro i term hterm
  cases hterm

theorem fits_nil_row (v : String → String) (terms : List String) :
    Fits v terms [] := by
  intro i term _ hi
  cases hi

/-- A row fits terms if its first value is what the first term stands for, and the others fit. -/
theorem fits_cons_iff
    {term value : String} {row : Row} :
    Fits v (term :: terms) (value :: row) ↔ value = termValue v term ∧ Fits v terms row := by
  constructor
  · intro h
    exact ⟨Option.some.inj (h 0 term rfl (Nat.zero_lt_succ _)),
      fun i other hother hi => h (i + 1) other hother (Nat.succ_lt_succ hi)⟩
  · rintro ⟨rfl, h⟩ i other hother hi
    cases i with
    | zero =>
        cases hother
        rfl
    | succ i => exact h i other hother (Nat.lt_of_succ_lt_succ hi)

/-- A row of as many values as there are terms fits them if it is their instance. -/
theorem fits_iff_of_length
    {row : Row}
    (h : row.length = terms.length) :
    Fits v terms row ↔ row = terms.map (termValue v) := by
  induction terms generalizing row with
  | nil =>
      rw [List.length_eq_zero_iff.1 h]
      exact iff_of_true (fits_nil v []) rfl
  | cons term terms ih =>
      cases row with
      | nil => cases h
      | cons value row => rw [fits_cons_iff, ih (Nat.succ.inj h), List.map_cons, List.cons.injEq]

end Terms

section Columns

variable {schema : Row} {terms : List String}

theorem getElem?_firstColumn
    {name : String}
    (h : name ∈ variableNames schema.length terms) :
    schema[terms.idxOf name]? = some (schema.getD (terms.idxOf name) "") := by
  have hlt := (mem_variableNames.1 h).2.2
  rw [List.getD_eq_getElem?_getD, List.getElem?_eq_getElem hlt]
  rfl

theorem firstColumns_eq (schema : Row) (terms : List String) :
    firstColumns schema terms =
      (variableNames schema.length terms).map fun name => schema.getD (terms.idxOf name) "" := by
  have hall : ∀ name ∈ variableNames schema.length terms,
      ((terms.idxOf? name).bind fun column => schema[column]?) =
        some (schema.getD (terms.idxOf name) "") := by
    intro name hname
    rw [Relation.idxOf?_of_mem (mem_variableNames.1 hname).1, Option.bind_some]
    exact getElem?_firstColumn hname
  exact List.filterMap_eq_map_iff_forall_eq_some.2 hall

theorem idxOf_firstColumn
    (hnodup : schema.Nodup)
    {name : String}
    (h : name ∈ variableNames schema.length terms) :
    schema.idxOf (schema.getD (terms.idxOf name) "") = terms.idxOf name := by
  obtain ⟨hlt, heq⟩ := List.getElem?_eq_some_iff.1 (getElem?_firstColumn h)
  rw [← heq]
  exact hnodup.idxOf_getElem _ hlt

theorem firstColumns_subset :
    ∀ column ∈ firstColumns schema terms, column ∈ schema := by
  intro column hcolumn
  rw [firstColumns_eq] at hcolumn
  obtain ⟨name, hname, rfl⟩ := List.mem_map.1 hcolumn
  exact List.mem_of_getElem? (getElem?_firstColumn hname)

theorem nodup_firstColumns
    (hnodup : schema.Nodup) :
    (firstColumns schema terms).Nodup := by
  rw [firstColumns_eq]
  refine List.Nodup.map_on ?_ (nodup_variableNames _ _)
  intro name hname name' hname' heq
  have hfirst := idxOf_firstColumn hnodup hname
  rw [heq, idxOf_firstColumn hnodup hname'] at hfirst
  exact ((List.idxOf_inj (mem_variableNames.1 hname').1).1 hfirst).symm

/-- The projection picks the first column of each variable. -/
theorem pickedPositions_firstColumns
    (hnodup : schema.Nodup) :
    Relation.pickedPositions schema (firstColumns schema terms) =
      (variableNames schema.length terms).map terms.idxOf := by
  rw [Relation.pickedPositions,
    Relation.projectedSchema_eq (nodup_firstColumns hnodup) firstColumns_subset,
    Relation.positions_eq firstColumns_subset, firstColumns_eq, List.map_map]
  exact List.map_congr_left fun name hname => idxOf_firstColumn hnodup hname

end Columns

section Binding

variable {r : Relation} {predicate : Predicate}

/-- Matching keeps the rows that satisfy the constants and the repetitions and picks from each the
values at the first positions of the variables. -/
theorem mem_bind
    (h : r.Clean)
    {row : Row} :
    row ∈ (bind r predicate).relation.rows ↔
      variableNames r.arity predicate.terms ≠ [] ∧
        ∃ source ∈ (select r predicate.terms).rows,
          source.gather?
            ((variableNames r.arity predicate.terms).map predicate.terms.idxOf) = some row := by
  have hprojected :
      Relation.projectedSchema r.schema (firstColumns r.schema predicate.terms) =
        firstColumns r.schema predicate.terms :=
    Relation.projectedSchema_eq (nodup_firstColumns h.nodup) firstColumns_subset
  have hempty :
      firstColumns r.schema predicate.terms ≠ [] ↔
        variableNames r.arity predicate.terms ≠ [] := by
    rw [firstColumns_eq, ne_eq, List.map_eq_nil_iff]
    rfl
  have hpicked :
      Relation.pickedPositions r.schema (firstColumns r.schema predicate.terms) =
        (variableNames r.arity predicate.terms).map predicate.terms.idxOf :=
    pickedPositions_firstColumns h.nodup
  unfold bind
  simp only [Relation.rows_renameSchema]
  rw [Relation.mem_project]
  change Relation.projectedSchema r.schema _ ≠ [] ∧
    (∃ source ∈ (select r predicate.terms).rows,
      source.gather? (Relation.pickedPositions r.schema _) = some row) ↔ _
  rw [hprojected, hpicked, hempty]

/-- The rows that matching gives are the values of the variables under the valuations that some row
of the relation fits. -/
theorem mem_bind_iff
    (h : r.Clean)
    {row : Row} :
    row ∈ (bind r predicate).relation.rows ↔
      variableNames r.arity predicate.terms ≠ [] ∧
        ∃ v, (∃ source ∈ r.rows, Fits v predicate.terms source) ∧
          row = (variableNames r.arity predicate.terms).map v := by
  rw [mem_bind h]
  refine and_congr_right fun _ => ?_
  constructor
  · rintro ⟨source, hsource, hgather⟩
    rw [Relation.mem_select] at hsource
    have hlength : source.length = r.arity := h.wellFormed source hsource.1
    have hvalues : ∀ name ∈ variableNames r.arity predicate.terms,
        source[predicate.terms.idxOf name]? =
          some (source.getD (predicate.terms.idxOf name) "") := by
      intro name hname
      rw [← hlength] at hname
      exact getElem?_firstColumn hname
    refine ⟨fun name => source.getD (predicate.terms.idxOf name) "", ⟨source, hsource.1, ?_⟩, ?_⟩
    · rw [fits_iff, hlength]
      exact ⟨hsource.2, hvalues⟩
    · rw [Row.gather?_map hvalues, Option.some.injEq] at hgather
      exact hgather.symm
  · rintro ⟨v, ⟨source, hsource, hfits⟩, rfl⟩
    have hlength : source.length = r.arity := h.wellFormed source hsource
    rw [fits_iff, hlength] at hfits
    refine ⟨source, Relation.mem_select.2 ⟨hsource, hfits.1⟩, ?_⟩
    exact Row.gather?_map hfits.2

/-- Matching gives one column for each variable, named after it. -/
theorem schema_bind
    (h : r.Clean)
    (hterms : ∀ term ∈ predicate.terms, term ≠ "") :
    (bind r predicate).relation.schema = variableNames r.arity predicate.terms := by
  refine Relation.schema_renameSchema ?_ ?_ (nodup_variableNames _ _)
  · change _ = (Relation.projectedSchema r.schema _).length
    rw [Relation.projectedSchema_eq (nodup_firstColumns h.nodup) firstColumns_subset,
      firstColumns_eq, List.length_map]
    rfl
  · exact fun name hname => hterms name (mem_variableNames.1 hname).1

/-- The columns differ whatever the names of the relation's columns and the terms are. -/
theorem clean_bind (r : Relation) (predicate : Predicate) :
    (bind r predicate).relation.Clean :=
  (Relation.clean_project _ _).renameSchema _

theorem fits_congr
    {terms : List String} {v w : String → String} {row : Row}
    (h : ∀ name ∈ variableNames row.length terms, v name = w name) :
    Fits v terms row ↔ Fits w terms row := by
  rw [fits_iff, fits_iff]
  refine and_congr_right fun _ => forall_congr' fun name => imp_congr_right fun hname => ?_
  rw [h name hname]

/-- Matching admits the valuations that some row fits. -/
theorem admits_bind
    (h : r.Clean)
    (hterms : ∀ term ∈ predicate.terms, term ≠ "")
    {v : String → String} :
    (bind r predicate).relation.Admits v ↔
      variableNames r.arity predicate.terms ≠ [] ∧
        ∃ source ∈ r.rows, Fits v predicate.terms source := by
  unfold Relation.Admits
  rw [schema_bind h hterms, mem_bind_iff h]
  refine and_congr_right fun _ => ?_
  constructor
  · rintro ⟨w, ⟨source, hsource, hfits⟩, heq⟩
    have hsame : ∀ name ∈ variableNames source.length predicate.terms, v name = w name := by
      rw [h.wellFormed source hsource]
      exact List.map_inj_left.1 heq
    exact ⟨source, hsource, (fits_congr hsame).2 hfits⟩
  · rintro ⟨source, hsource, hfits⟩
    exact ⟨v, ⟨source, hsource, hfits⟩, rfl⟩

end Binding

end Matching

end Matching

end Datalog
