import Datalog.Issue
import Datalog.Proofs.Algebra.Valuation
import Datalog.Proofs.Evaluation.Consequence
import Mathlib.Data.List.Induction

/-!
# What the checks of a program say about its loaded database

**Loading.** A declared relation has the columns of the last scheme of its name and the rows of the
facts of its name that have the right length.

**Checks.** A program without issues is `Checked`: column names differ, every predicate has as many
terms as the relation it names has columns, and each head term is a variable of the body.

**Results.** In the database of a checked program, and in every larger one, the relation that a
predicate names is there and has as many columns as the predicate has terms.
-/

namespace Datalog

section Loading

namespace Relation

variable {r : Relation}

@[simp] theorem name_insertAll (r : Relation) (rows : List Row) :
    (r.insertAll rows).name = r.name := by
  unfold insertAll
  induction rows generalizing r with
  | nil => rfl
  | cons row rest ih => rw [List.foldl_cons, ih, name_insert]

@[simp] theorem schema_insertAll (r : Relation) (rows : List Row) :
    (r.insertAll rows).schema = r.schema := by
  unfold insertAll
  induction rows generalizing r with
  | nil => rfl
  | cons row rest ih => rw [List.foldl_cons, ih, schema_insert]

theorem mem_insertAll
    {rows : List Row} {row : Row} :
    row ∈ (r.insertAll rows).rows ↔ row ∈ r.rows ∨ (row ∈ rows ∧ row.length = r.arity) := by
  unfold insertAll
  induction rows generalizing r with
  | nil => simp
  | cons new rest ih =>
      have harity : (r.insert new).arity = r.arity := congrArg List.length (schema_insert r new)
      rw [List.foldl_cons, ih, mem_insert, harity, List.mem_cons, or_assoc]
      refine or_congr_right ?_
      constructor
      · rintro (⟨rfl, hlength⟩ | ⟨hmem, hlength⟩)
        · exact ⟨Or.inl rfl, hlength⟩
        · exact ⟨Or.inr hmem, hlength⟩
      · rintro ⟨rfl | hmem, hlength⟩
        · exact Or.inl ⟨rfl, hlength⟩
        · exact Or.inr ⟨hmem, hlength⟩

end Relation

namespace Program

/-- The last scheme of a name. -/
def scheme? (program : Program) (name : String) : Option Predicate :=
  program.schemes.reverse.find? fun scheme => scheme.name == name

/-- The rows that the facts of a name give. -/
def factRows (facts : List Predicate) (name : String) : List Row :=
  (facts.filter fun fact => fact.name == name).map Predicate.terms

theorem mem_of_scheme?
    {program : Program} {name : String} {scheme : Predicate}
    (h : program.scheme? name = some scheme) :
    scheme ∈ program.schemes :=
  List.mem_reverse.1 (List.mem_of_find?_eq_some h)

end Program

namespace Database

variable {db : Database}

section Declaring

theorem relation?_ofSchemes (schemes : List Predicate) (name : String) :
    (ofSchemes schemes).relation? name =
      (schemes.reverse.find? fun scheme => scheme.name == name).map fun scheme =>
        Relation.empty scheme.name scheme.terms := by
  induction schemes using List.reverseRecOn with
  | nil => rfl
  | append_singleton front scheme ih =>
      have hstep :
          ofSchemes (front ++ [scheme]) =
            (ofSchemes front).store (Relation.empty scheme.name scheme.terms) := by
        unfold ofSchemes
        rw [List.foldl_append]
        rfl
      rw [hstep, relation?_store, List.reverse_append, List.reverse_singleton,
        List.singleton_append, List.find?_cons]
      by_cases hname : scheme.name = name
      · subst hname
        simp [Relation.empty]
      · have hbeq : (scheme.name == name) = false := beq_eq_false_iff_ne.2 hname
        have hne : name ≠ (Relation.empty scheme.name scheme.terms).name := Ne.symm hname
        rw [hbeq, if_neg hne]
        exact ih

theorem relation?_loadFact
    (h : db.Keyed)
    (fact : Predicate) (name : String) :
    (db.loadFact fact).relation? name =
      (db.relation? name).map fun r => if fact.name = name then r.insert fact.terms else r := by
  unfold Database.loadFact
  cases hr : db.relation? fact.name with
  | none =>
      by_cases hname : fact.name = name
      · subst hname
        simp [hr]
      · simp [hname]
  | some r =>
      simp only [relation?_store, Relation.name_insert, h _ r hr]
      by_cases hname : name = fact.name
      · subst hname
        simp [hr]
      · have hne : fact.name ≠ name := Ne.symm hname
        simp [hname, hne]

theorem relation?_foldl_loadFact
    (h : db.Sound)
    (facts : List Predicate) (name : String) :
    (facts.foldl loadFact db).relation? name =
      (db.relation? name).map fun r => r.insertAll (Program.factRows facts name) := by
  induction facts generalizing db with
  | nil => simp [Program.factRows, Relation.insertAll]
  | cons fact rest ih =>
      rw [List.foldl_cons, ih (h.loadFact fact), relation?_loadFact h.keyed, Option.map_map]
      by_cases hname : fact.name = name
      · simp [Function.comp_def, Program.factRows, hname, Relation.insertAll]
      · simp [Function.comp_def, Program.factRows, hname, Relation.insertAll]

/-- A loaded relation has the columns of the last scheme of its name and the rows of the facts of
its name. -/
theorem relation?_ofProgram (program : Program) (name : String) :
    (ofProgram program).relation? name =
      (program.scheme? name).map fun scheme =>
        (Relation.empty scheme.name scheme.terms).insertAll
          (Program.factRows program.facts name) := by
  unfold ofProgram
  rw [relation?_foldl_loadFact (sound_ofSchemes program.schemes), relation?_ofSchemes,
    Option.map_map]
  rfl

/-- The rows of a loaded relation are the facts of its name that have the right length. -/
theorem exists_fact_of_mem
    {program : Program} {name : String} {r : Relation} {row : Row}
    (hr : (ofProgram program).relation? name = some r)
    (hrow : row ∈ r.rows) :
    ∃ fact ∈ program.facts, fact.name = name ∧ fact.terms = row := by
  rw [relation?_ofProgram] at hr
  obtain ⟨scheme, _, rfl⟩ := Option.map_eq_some_iff.1 hr
  rcases Relation.mem_insertAll.1 hrow with hrow | ⟨hrow, _⟩
  · exact absurd hrow (OrderedSet.not_mem_empty row)
  · obtain ⟨fact, hfact, heq⟩ := List.mem_map.1 hrow
    obtain ⟨hmem, hname⟩ := List.mem_filter.1 hfact
    exact ⟨fact, hmem, by simpa using hname, heq⟩

/-- Loading invents no value. -/
theorem over_ofProgram
    {program : Program} {p : String → Prop}
    (h : ∀ fact ∈ program.facts, ∀ term ∈ fact.terms, p term) :
    (ofProgram program).Over p := by
  intro name r hr row hrow
  obtain ⟨fact, hfact, _, rfl⟩ := exists_fact_of_mem hr hrow
  exact h fact hfact

end Declaring

end Database

namespace Program

/-- What a program without issues satisfies. -/
structure Checked (program : Program) : Prop where
  columns : ∀ scheme ∈ program.schemes, scheme.terms.Nodup
  facts :
    ∀ fact ∈ program.facts, program.declaredArity? fact.name = some fact.terms.length
  heads :
    ∀ rule ∈ program.rules, program.declaredArity? rule.head.name = some rule.head.terms.length
  bodies :
    ∀ rule ∈ program.rules, ∀ predicate ∈ rule.body,
      program.declaredArity? predicate.name = some predicate.terms.length
  bound :
    ∀ rule ∈ program.rules, ∀ term ∈ rule.head.terms,
      TermKind.isConstant term = false ∧ ∃ predicate ∈ rule.body, term ∈ predicate.terms

section Checking

variable {program : Program}

theorem nodup_of_repeatedAfter_eq_nil
    {seen entries : List String}
    (h : repeatedAfter seen entries = []) :
    entries.Nodup ∧ ∀ entry ∈ entries, entry ∉ seen := by
  induction entries generalizing seen with
  | nil => exact ⟨List.nodup_nil, nofun⟩
  | cons entry rest ih =>
      rw [repeatedAfter] at h
      split at h
      · cases h
      · rename_i hnew
        obtain ⟨hnodup, hrest⟩ := ih h
        have hentry : entry ∉ rest := fun hmem => hrest entry hmem List.mem_cons_self
        refine ⟨List.nodup_cons.2 ⟨hentry, hnodup⟩, fun other hother => ?_⟩
        rcases List.mem_cons.1 hother with rfl | hother
        · simpa using hnew
        · exact fun hseen => hrest other hother (List.mem_cons_of_mem _ hseen)

theorem nodup_of_schemeIssues_eq_nil
    {declared : List String} {schemes : List Predicate}
    (h : schemeIssues declared schemes = []) :
    ∀ scheme ∈ schemes, scheme.terms.Nodup := by
  induction schemes generalizing declared with
  | nil => exact nofun
  | cons scheme rest ih =>
      rw [schemeIssues, List.append_eq_nil_iff, List.append_eq_nil_iff, List.map_eq_nil_iff] at h
      intro other hother
      rcases List.mem_cons.1 hother with rfl | hother
      · exact (nodup_of_repeatedAfter_eq_nil h.1.2).1
      · exact ih h.2 other hother

theorem declaredArity?_of_shapeIssue?_eq_none
    {place : Place} {predicate : Predicate}
    (h : program.shapeIssue? place predicate = none) :
    program.declaredArity? predicate.name = some predicate.terms.length := by
  unfold shapeIssue? at h
  split at h
  · cases h
  · rename_i expected hexpected
    split at h
    · rename_i hlength
      rw [hexpected, hlength]
    · cases h

theorem bound_of_unboundIssues_eq_nil
    {rule : Rule}
    (h : unboundIssues rule = []) :
    ∀ term ∈ rule.head.terms,
      TermKind.isConstant term = false ∧ ∃ predicate ∈ rule.body, term ∈ predicate.terms := by
  intro term hterm
  unfold unboundIssues at h
  rw [List.map_eq_nil_iff, List.filter_eq_nil_iff] at h
  have hbound := h term hterm
  simp only [Bool.not_eq_true', Bool.not_eq_false, List.contains_iff_mem, List.mem_filter,
    List.mem_flatMap] at hbound
  exact ⟨hbound.2, hbound.1⟩

/-- A program without issues is checked. -/
theorem checked_of_issues_eq_nil
    (h : program.issues = []) :
    program.Checked := by
  unfold issues at h
  simp only [List.append_eq_nil_iff, List.filterMap_eq_nil_iff, List.flatMap_eq_nil_iff] at h
  obtain ⟨⟨⟨⟨hschemes, hfacts⟩, hrules⟩, _⟩, hbound⟩ := h
  have hshapes (rule : Rule) (hrule : rule ∈ program.rules) :
      program.shapeIssue? .ruleHead rule.head = none ∧
        ∀ predicate ∈ rule.body, program.shapeIssue? .ruleBody predicate = none := by
    have hissues := hrules rule hrule
    rw [ruleShapeIssues, List.append_eq_nil_iff, Option.toList_eq_nil_iff,
      List.filterMap_eq_nil_iff] at hissues
    exact hissues
  refine ⟨nodup_of_schemeIssues_eq_nil hschemes, ?_, ?_, ?_, ?_⟩
  · exact fun fact hfact => declaredArity?_of_shapeIssue?_eq_none (hfacts fact hfact)
  · exact fun rule hrule => declaredArity?_of_shapeIssue?_eq_none (hshapes rule hrule).1
  · exact fun rule hrule predicate hpredicate =>
      declaredArity?_of_shapeIssue?_eq_none ((hshapes rule hrule).2 predicate hpredicate)
  · exact fun rule hrule => bound_of_unboundIssues_eq_nil (hbound rule hrule)

end Checking

end Program

namespace Database

section Declared

variable {program : Program} {db : Database}

theorem exists_relation_of_declaredArity?
    {name : String} {arity : Nat}
    (h : program.declaredArity? name = some arity) :
    ∃ scheme ∈ program.schemes, scheme.terms.length = arity ∧
      ∃ r, (ofProgram program).relation? name = some r ∧ r.schema = scheme.terms := by
  obtain ⟨scheme, hscheme, rfl⟩ := Option.map_eq_some_iff.1 h
  have hloaded := relation?_ofProgram program name
  rw [Program.scheme?, hscheme, Option.map_some] at hloaded
  exact ⟨scheme, Program.mem_of_scheme? hscheme, rfl, _, hloaded, Relation.schema_insertAll _ _⟩

/-- In every database above the loaded one, a declared relation has the columns of a scheme. -/
theorem exists_relation_of_le
    (hle : ofProgram program ≤ db)
    {name : String} {arity : Nat}
    (h : program.declaredArity? name = some arity) :
    ∃ scheme ∈ program.schemes, ∃ r, db.relation? name = some r ∧ r.schema = scheme.terms ∧
      r.arity = arity := by
  obtain ⟨scheme, hscheme, hlength, r, hr, hschema⟩ := exists_relation_of_declaredArity? h
  obtain ⟨s, hs, hrs⟩ := exists_le_of_le hle hr
  have hcolumns : s.schema = scheme.terms := hrs.2.1.symm.trans hschema
  exact ⟨scheme, hscheme, s, hs, hcolumns, (congrArg List.length hcolumns).trans hlength⟩

/-- In every database above the loaded one, the columns of a relation are those of a scheme. -/
theorem exists_scheme_of_le
    (hle : ofProgram program ≤ db)
    {name : String} {r : Relation}
    (hr : db.relation? name = some r) :
    ∃ scheme ∈ program.schemes, r.schema = scheme.terms := by
  obtain ⟨r₀, hr₀, hrs⟩ := exists_ge_of_le hle hr
  rw [relation?_ofProgram] at hr₀
  obtain ⟨scheme, hscheme, rfl⟩ := Option.map_eq_some_iff.1 hr₀
  exact ⟨scheme, Program.mem_of_scheme? hscheme,
    hrs.2.1.symm.trans (Relation.schema_insertAll _ _)⟩

/-- In every database above the one of a checked program the columns of a relation have different
names. -/
theorem nodup_schema_of_le
    (hle : ofProgram program ≤ db)
    (hchecked : program.Checked)
    {name : String} {r : Relation}
    (hr : db.relation? name = some r) :
    r.schema.Nodup := by
  obtain ⟨scheme, hscheme, hschema⟩ := exists_scheme_of_le hle hr
  rw [hschema]
  exact hchecked.columns scheme hscheme

/-- The facts of a checked program are rows of the loaded database. -/
theorem exists_row_of_fact
    (hchecked : program.Checked)
    {fact : Predicate}
    (hfact : fact ∈ program.facts) :
    ∃ r, (ofProgram program).relation? fact.name = some r ∧ fact.terms ∈ r.rows := by
  obtain ⟨scheme, hscheme, hlength⟩ := Option.map_eq_some_iff.1 (hchecked.facts fact hfact)
  have hloaded := relation?_ofProgram program fact.name
  rw [Program.scheme?, hscheme, Option.map_some] at hloaded
  have hrow : fact.terms ∈ Program.factRows program.facts fact.name :=
    List.mem_map_of_mem (List.mem_filter.2 ⟨hfact, beq_self_eq_true _⟩)
  exact ⟨_, hloaded, Relation.mem_insertAll.2 (Or.inr ⟨hrow, hlength.symm⟩)⟩

end Declared

end Database

end Loading

end Datalog
