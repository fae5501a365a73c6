import Datalog.Proofs.Algebra.JoinLaws
import Datalog.Proofs.Algebra.Matching
import Mathlib.Data.Set.Function

/-!
# Renaming variables

**Names.** The algebra only asks of names which of them are equal and where one stands among others.
A function that is injective on the names at hand changes neither, so the operations commute with
renaming the columns by it.

**Terms.** A renaming of variables fixes the constants and keeps the other terms apart from each
other, from the constants and from the empty term.

**Results.** Matching a renamed predicate finds the same rows under renamed columns.  The columns of
the relation that is matched play no part in this: a variable may be called like one of them before
or after the renaming.
-/

namespace Datalog

section Renaming

section Names

variable {f : String → String} {scope l : List String} {name : String}
variable (hf : Set.InjOn f {a | a ∈ scope})

include hf

theorem mem_map_of_injOn
    (hl : l ⊆ scope)
    (hname : name ∈ scope) :
    f name ∈ l.map f ↔ name ∈ l := by
  rw [List.mem_map]
  constructor
  · rintro ⟨other, hother, heq⟩
    rwa [← hf (hl hother) hname heq]
  · exact fun h => ⟨name, h, rfl⟩

theorem contains_map_of_injOn
    (hl : l ⊆ scope)
    (hname : name ∈ scope) :
    (l.map f).contains (f name) = l.contains name := by
  rw [Bool.eq_iff_iff, List.contains_iff_mem, List.contains_iff_mem,
    mem_map_of_injOn hf hl hname]

theorem idxOf?_map_of_injOn
    (hl : l ⊆ scope)
    (hname : name ∈ scope) :
    (l.map f).idxOf? (f name) = l.idxOf? name := by
  induction l with
  | nil => rfl
  | cons other rest ih =>
      obtain ⟨hother, hrest⟩ := List.cons_subset.1 hl
      have hbeq : (f other == f name) = (other == name) := by
        rw [Bool.eq_iff_iff, beq_iff_eq, beq_iff_eq]
        exact ⟨hf hother hname, congrArg f⟩
      rw [List.map_cons, List.idxOf?_cons, List.idxOf?_cons, hbeq, ih hrest]

theorem eraseDups_map_of_injOn
    (hl : l ⊆ scope) :
    (l.map f).eraseDups = l.eraseDups.map f := by
  induction hlength : l.length using Nat.strongRecOn generalizing l with
  | ind n ih =>
      cases l with
      | nil => rfl
      | cons name rest =>
          subst hlength
          obtain ⟨hname, hrest⟩ := List.cons_subset.1 hl
          have hothers : (rest.map f).filter (fun other => !other == f name) =
              (rest.filter fun other => !other == name).map f := by
            rw [List.filter_map]
            refine congrArg (List.map f) (List.filter_congr fun other hother => ?_)
            have hbeq : (f other == f name) = (other == name) := by
              rw [Bool.eq_iff_iff, beq_iff_eq, beq_iff_eq]
              exact ⟨hf (hrest hother) hname, congrArg f⟩
            rw [Function.comp_apply, hbeq]
          have hkept : (rest.filter fun other => !other == name) ⊆ scope :=
            fun other hother => hrest (List.mem_filter.1 hother).1
          rw [List.map_cons, List.eraseDups_cons, List.eraseDups_cons, hothers, List.map_cons,
            ih _ (Nat.lt_succ_of_le (List.length_filter_le _ rest)) hkept rfl]

end Names

namespace Relation

/-- The relation with each column renamed by the function. -/
def mapColumns (f : String → String) (r : Relation) : Relation :=
  { r with schema := r.schema.map f }

section Columns

variable {f : String → String} {scope : List String} {l r : Relation}

theorem admits_mapColumns
    {v : String → String} :
    (r.mapColumns f).Admits v ↔ r.Admits (v ∘ f) := by
  change (r.schema.map f).map v ∈ r.rows ↔ _
  rw [List.map_map]
  rfl

variable (hf : Set.InjOn f {a | a ∈ scope})

include hf

theorem Clean.mapColumns
    (h : r.Clean)
    (hr : r.schema ⊆ scope) :
    (r.mapColumns f).Clean where
  nodup := List.Nodup.map_on (fun _ ha _ hb heq => hf (hr ha) (hr hb) heq) h.nodup
  wellFormed row hrow := by
    rw [h.wellFormed row hrow]
    exact (List.length_map f).symm

theorem joinedSchema_map
    {left right : Row}
    (hleft : left ⊆ scope)
    (hright : right ⊆ scope) :
    joinedSchema (left.map f) (right.map f) = (joinedSchema left right).map f := by
  unfold joinedSchema
  rw [List.filter_map, List.map_append]
  refine congrArg (fun added => left.map f ++ added.map f)
    (List.filter_congr fun column hcolumn => ?_)
  rw [Function.comp_apply, contains_map_of_injOn hf hleft (hright hcolumn)]

theorem join_mapColumns
    (hl : l.Clean)
    (hr : r.Clean)
    (hleft : l.schema ⊆ scope)
    (hright : r.schema ⊆ scope) :
    (l.mapColumns f).join (r.mapColumns f) = (l.join r).mapColumns f := by
  have hschema : ((l.mapColumns f).join (r.mapColumns f)).schema =
      ((l.join r).mapColumns f).schema := joinedSchema_map hf hleft hright
  have hjoined : (l.join r).schema ⊆ scope := fun column hcolumn =>
    (mem_joinedSchema.1 hcolumn).elim (@hleft column) (@hright column)
  have hl' := Clean.mapColumns hf hl hleft
  have hr' := Clean.mapColumns hf hr hright
  refine (hl'.join hr').eq_of_admits (Clean.mapColumns hf (hl.join hr) hjoined) rfl hschema
    fun v => ?_
  rw [admits_join hl' hr', admits_mapColumns, admits_mapColumns, admits_mapColumns,
    admits_join hl hr]

theorem foldl_join_mapColumns
    {first : Relation} {rest : List Relation}
    (hclean : ∀ r ∈ first :: rest, r.Clean)
    (hscope : ∀ r ∈ first :: rest, r.schema ⊆ scope) :
    (rest.map (mapColumns f)).foldl join (first.mapColumns f) =
      (rest.foldl join first).mapColumns f := by
  induction rest generalizing first with
  | nil => rfl
  | cons r rest ih =>
      obtain ⟨hfirst, hclean⟩ := List.forall_mem_cons.1 hclean
      obtain ⟨hr, hclean⟩ := List.forall_mem_cons.1 hclean
      obtain ⟨hfirst', hscope⟩ := List.forall_mem_cons.1 hscope
      obtain ⟨hr', hscope⟩ := List.forall_mem_cons.1 hscope
      rw [List.map_cons, List.foldl_cons, List.foldl_cons,
        join_mapColumns hf hfirst hr hfirst' hr']
      refine ih (List.forall_mem_cons.2 ⟨hfirst.join hr, hclean⟩)
        (List.forall_mem_cons.2 ⟨fun column hcolumn => ?_, hscope⟩)
      exact (mem_joinedSchema.1 hcolumn).elim (@hfirst' column) (@hr' column)

theorem projectedSchema_map
    {schema target : Row}
    (hschema : schema ⊆ scope)
    (htarget : target ⊆ scope) :
    projectedSchema (schema.map f) (target.map f) = (projectedSchema schema target).map f := by
  unfold projectedSchema
  rw [eraseDups_map_of_injOn hf htarget, List.filter_map]
  refine congrArg (List.map f) (List.filter_congr fun column hcolumn => ?_)
  exact contains_map_of_injOn hf hschema (htarget (List.mem_eraseDups.1 hcolumn))

theorem positions_map
    {schema names : Row}
    (hschema : schema ⊆ scope)
    (hnames : names ⊆ scope) :
    positions (schema.map f) (names.map f) = positions schema names := by
  unfold positions
  rw [List.filterMap_map]
  exact List.filterMap_congr fun name hname => idxOf?_map_of_injOn hf hschema (hnames hname)

/-- Projecting onto renamed columns is renaming the columns of the projection. -/
theorem project_mapColumns
    {target : Row}
    (hschema : r.schema ⊆ scope)
    (htarget : target ⊆ scope) :
    (r.mapColumns f).project (target.map f) = (r.project target).mapColumns f := by
  have hcolumns : projectedSchema (r.schema.map f) (target.map f) =
      (projectedSchema r.schema target).map f := projectedSchema_map hf hschema htarget
  have hkept : projectedSchema r.schema target ⊆ scope := fun column hcolumn =>
    hschema (mem_projectedSchema.1 hcolumn).2
  have hpicked : pickedPositions (r.schema.map f) (target.map f) =
      pickedPositions r.schema target := by
    rw [pickedPositions, hcolumns, positions_map hf hschema hkept, pickedPositions]
  refine eq_of_mem_iff rfl hcolumns fun row => ?_
  change row ∈ ((r.mapColumns f).project (target.map f)).rows ↔ row ∈ (r.project target).rows
  rw [mem_project, mem_project]
  change projectedSchema (r.schema.map f) (target.map f) ≠ [] ∧
    (∃ source ∈ r.rows,
      source.gather? (pickedPositions (r.schema.map f) (target.map f)) = some row) ↔ _
  rw [hcolumns, hpicked, ne_eq, List.map_eq_nil_iff]

end Columns

end Relation

/-- The terms that are no constants go to terms that are no constants, none of them empty and no two
to the same. -/
structure Renames (σ : String → String) (terms : List String) : Prop where
  ne_empty : ∀ term ∈ terms, TermKind.isConstant term = false → σ term ≠ ""
  isConstant : ∀ term ∈ terms, TermKind.isConstant term = false →
    TermKind.isConstant (σ term) = false
  injective : Set.InjOn σ {term | term ∈ terms ∧ TermKind.isConstant term = false}

/-- The predicate with its variables renamed; constants stay. -/
def Predicate.rename (σ : String → String) (predicate : Predicate) : Predicate :=
  { predicate with terms := predicate.ground σ }

@[simp] theorem Predicate.name_rename (σ : String → String) (predicate : Predicate) :
    (predicate.rename σ).name = predicate.name :=
  rfl

namespace Renames

variable {σ : String → String} {terms : List String}

theorem mono
    {fewer : List String}
    (h : Renames σ terms)
    (hfewer : fewer ⊆ terms) :
    Renames σ fewer where
  ne_empty term hterm := h.ne_empty term (hfewer hterm)
  isConstant term hterm := h.isConstant term (hfewer hterm)
  injective := by
    intro a ha b hb heq
    exact h.injective ⟨hfewer ha.1, ha.2⟩ ⟨hfewer hb.1, hb.2⟩ heq

/-- Renaming the variables of a term does not make it a constant or a variable. -/
theorem isConstant_termValue
    (h : Renames σ terms)
    {term : String}
    (hterm : term ∈ terms) :
    TermKind.isConstant (termValue σ term) = TermKind.isConstant term := by
  cases hkind : TermKind.isConstant term with
  | true => rw [termValue_of_isConstant hkind, hkind]
  | false => rw [termValue_of_not_isConstant hkind, h.isConstant term hterm hkind]

theorem injOn_termValue
    (h : Renames σ terms) :
    Set.InjOn (termValue σ) {term | term ∈ terms} := by
  intro a ha b hb heq
  have hkind := congrArg TermKind.isConstant heq
  rw [h.isConstant_termValue ha, h.isConstant_termValue hb] at hkind
  cases hb' : TermKind.isConstant b with
  | true =>
      rw [hb'] at hkind
      rwa [termValue_of_isConstant hkind, termValue_of_isConstant hb'] at heq
  | false =>
      rw [hb'] at hkind
      rw [termValue_of_not_isConstant hkind, termValue_of_not_isConstant hb'] at heq
      exact h.injective ⟨ha, hkind⟩ ⟨hb, hb'⟩ heq

theorem termValue_ne_empty
    (h : Renames σ terms)
    {term : String}
    (hterm : term ∈ terms)
    (hne : term ≠ "") :
    termValue σ term ≠ "" := by
  cases hkind : TermKind.isConstant term with
  | true => rwa [termValue_of_isConstant hkind]
  | false =>
      rw [termValue_of_not_isConstant hkind]
      exact h.ne_empty term hterm hkind

end Renames

namespace Matching

section Terms

variable {σ : String → String} {terms : List String} {arity : Nat} {schema : Row}

theorem constants_map
    (h : Renames σ terms) :
    constants (terms.map (termValue σ)) = constants terms := by
  unfold constants
  rw [List.zipIdx_map, List.filterMap_map]
  refine List.filterMap_congr ?_
  rintro ⟨term, column⟩ hmem
  have hterm := List.mem_of_getElem? (List.mk_mem_zipIdx_iff_getElem?.1 hmem)
  simp only [Function.comp_apply, Prod.map_apply, id_eq, h.isConstant_termValue hterm]
  split
  · rename_i hkind
    rw [termValue_of_isConstant hkind]
  · rfl

theorem repetitions_map
    (h : Renames σ terms) :
    repetitions (terms.map (termValue σ)) = repetitions terms := by
  unfold repetitions
  rw [List.zipIdx_map, List.filterMap_map]
  refine List.filterMap_congr ?_
  rintro ⟨term, column⟩ hmem
  have hterm := List.mem_of_getElem? (List.mk_mem_zipIdx_iff_getElem?.1 hmem)
  simp only [Function.comp_apply, Prod.map_apply, id_eq, h.isConstant_termValue hterm,
    idxOf?_map_of_injOn h.injOn_termValue (List.Subset.refl terms) hterm]

theorem variableNames_map
    (h : Renames σ terms) :
    variableNames arity (terms.map (termValue σ)) =
      (variableNames arity terms).map (termValue σ) := by
  have hkept : ((terms.take arity).filter fun term => !TermKind.isConstant term) ⊆ terms :=
    fun term hterm => List.mem_of_mem_take (List.mem_filter.1 hterm).1
  unfold variableNames
  rw [← List.map_take, List.filter_map, ← eraseDups_map_of_injOn h.injOn_termValue hkept]
  refine congrArg (fun names => (List.map (termValue σ) names).eraseDups)
    (List.filter_congr fun term hterm => ?_)
  rw [Function.comp_apply, h.isConstant_termValue (List.mem_of_mem_take hterm)]

theorem firstColumns_map
    (h : Renames σ terms) :
    firstColumns schema (terms.map (termValue σ)) = firstColumns schema terms := by
  unfold firstColumns
  rw [variableNames_map h, List.filterMap_map]
  refine List.filterMap_congr fun name hname => ?_
  rw [Function.comp_apply, idxOf?_map_of_injOn h.injOn_termValue (List.Subset.refl terms)
    (mem_variableNames.1 hname).1]

end Terms

section Binding

variable {σ : String → String} {r : Relation} {predicate : Predicate}

theorem select_map
    (h : Renames σ predicate.terms) :
    select r (predicate.rename σ).terms = select r predicate.terms := by
  have hrepetitions : repetitions (predicate.rename σ).terms = repetitions predicate.terms :=
    repetitions_map h
  have hconstants : constants (predicate.rename σ).terms = constants predicate.terms :=
    constants_map h
  rw [select, hrepetitions, hconstants, select]

/-- There are at most as many different first columns as there are variables. -/
theorem length_firstColumns_le :
    (Relation.projectedSchema r.schema (firstColumns r.schema predicate.terms)).length ≤
      (variableNames r.arity predicate.terms).length := by
  have hsubset : Relation.projectedSchema r.schema (firstColumns r.schema predicate.terms) ⊆
      firstColumns r.schema predicate.terms :=
    fun column hcolumn => (Relation.mem_projectedSchema.1 hcolumn).1
  have hlength : (firstColumns r.schema predicate.terms).length =
      (variableNames r.arity predicate.terms).length := by
    rw [firstColumns_eq, List.length_map]
    rfl
  exact Nat.le_trans ((Relation.nodup_projectedSchema _ _).length_le_of_subset hsubset)
    (Nat.le_of_eq hlength)

/-- The match of terms that are not empty is the projection, with as many variables for its columns
as it has columns. -/
theorem relation_bind
    (hterms : ∀ term ∈ predicate.terms, term ≠ "") :
    (bind r predicate).relation =
      let selected := (select r predicate.terms).project (firstColumns r.schema predicate.terms)
      { selected with
        schema := (variableNames r.arity predicate.terms).take selected.schema.length } :=
  Relation.renameSchema_eq length_firstColumns_le
    (fun name hname => hterms name (mem_variableNames.1 hname).1) (nodup_variableNames _ _)

/-- The columns of a match are variables of the predicate. -/
theorem schema_bind_subset
    (hterms : ∀ term ∈ predicate.terms, term ≠ "") :
    (bind r predicate).relation.schema ⊆ variableNames r.arity predicate.terms := by
  rw [relation_bind hterms]
  exact List.take_subset _ _

/-- Matching a renamed predicate counts the same rows. -/
theorem matched_rename
    (h : Renames σ predicate.terms) :
    (bind r (predicate.rename σ)).matched = (bind r predicate).matched :=
  congrArg Relation.size (select_map h)

/-- Matching a renamed predicate finds the same rows under renamed columns. -/
theorem relation_rename
    (h : Renames σ predicate.terms)
    (hterms : ∀ term ∈ predicate.terms, term ≠ "") :
    (bind r (predicate.rename σ)).relation =
      (bind r predicate).relation.mapColumns (termValue σ) := by
  have hterms' : ∀ term ∈ (predicate.rename σ).terms, term ≠ "" := by
    intro term hterm
    obtain ⟨source, hsource, rfl⟩ := List.mem_map.1 hterm
    exact h.termValue_ne_empty hsource (hterms source hsource)
  have hcolumns : firstColumns r.schema (predicate.rename σ).terms =
      firstColumns r.schema predicate.terms := firstColumns_map h
  have hnames : variableNames r.arity (predicate.rename σ).terms =
      (variableNames r.arity predicate.terms).map (termValue σ) := variableNames_map h
  rw [relation_bind hterms', relation_bind hterms, select_map h, hcolumns, hnames]
  simp only [Relation.mapColumns, List.map_take]

end Binding

end Matching

end Renaming

end Datalog
