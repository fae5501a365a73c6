import Datalog.Proofs.Evaluation.Firing
import Datalog.Proofs.Evaluation.LeastModel

/-!
# The evaluation of a program derives what follows from it

**Derivability.** A row is derivable for a relation if it is a fact of the program, or the instance
of a rule head under a valuation under which every body predicate has a derivable instance.

**Rule.** A rule `Suits` a database if every predicate of it matches the columns of the relation it
names, the body has variables enough for the head, and column names differ.  Such a rule derives the
head instances of the valuations under which its body holds.

**Results.** In the evaluation of a program without issues, with different variables in each head
and a variable in each body predicate, the rows of a relation are its derivable rows.
-/

namespace Datalog

section Semantics

theorem Relation.wellFormed_of_le
    {r s : Relation}
    (h : r ≤ s)
    (hs : s.WellFormed) :
    r.WellFormed := by
  intro row hrow
  rw [h.2.1]
  exact hs row (h.2.2 row hrow)

namespace Database

section Deriving

/-- The body predicates match their relations and bind the head terms, which match theirs. -/
structure Suits (db : Database) (rule : Rule) : Prop where
  clean : ∀ name r, db.relation? name = some r → r.Clean
  body_ne_nil : rule.body ≠ []
  body :
    ∀ predicate ∈ rule.body,
      (∃ r, db.relation? predicate.name = some r ∧ predicate.terms.length = r.arity) ∧
      (∀ term ∈ predicate.terms, term ≠ "") ∧
      ∃ term ∈ predicate.terms, TermKind.isConstant term = false
  head :
    ∃ r, db.relation? rule.head.name = some r ∧ rule.head.terms.length = r.arity ∧
      ∀ column ∈ r.schema, column ≠ ""
  head_ne_nil : rule.head.terms ≠ []
  head_nodup : rule.head.terms.Nodup
  bound :
    ∀ term ∈ rule.head.terms,
      TermKind.isConstant term = false ∧ ∃ predicate ∈ rule.body, term ∈ predicate.terms

variable {db : Database} {rule : Rule} {v : String → String}

theorem Suits.terms_ne_empty
    (h : db.Suits rule) :
    ∀ predicate ∈ rule.body, ∀ term ∈ predicate.terms, term ≠ "" :=
  fun predicate hpredicate => (h.body predicate hpredicate).2.1

/-- As many terms as columns: each variable has a column. -/
theorem Suits.isVisible_of_mem
    (h : db.Suits rule)
    {predicate : Predicate} {r : Relation} {term : String}
    (hpredicate : predicate ∈ rule.body)
    (hr : db.relation? predicate.name = some r)
    (hmem : term ∈ predicate.terms)
    (hvariable : TermKind.isConstant term = false) :
    Matching.IsVisible r.arity predicate.terms term := by
  obtain ⟨⟨r', hr', hlength⟩, _⟩ := h.body predicate hpredicate
  rw [hr] at hr'
  cases hr'
  exact Matching.isVisible_of_mem hmem hvariable (Nat.le_of_eq hlength)

/-- A valuation satisfies the body exactly if all its instances are rows. -/
theorem Suits.satisfies_iff
    (h : db.Suits rule) :
    db.Satisfies rule.body v ↔
      ∀ predicate ∈ rule.body, db.HasRow predicate.name (predicate.ground v) := by
  refine forall_congr' fun predicate => imp_congr_right fun hpredicate => ?_
  obtain ⟨⟨r, hr, hlength⟩, _⟩ := h.body predicate hpredicate
  have hfits (row : Row) (hrow : row ∈ r.rows) :
      Matching.Fits v predicate.terms row ↔ row = predicate.ground v :=
    Matching.fits_iff_of_length (((h.clean _ r hr).wellFormed row hrow).trans hlength.symm)
  rw [hasRow_iff hr]
  constructor
  · intro hall
    obtain ⟨row, hrow, hfit⟩ := hall r hr
    rw [← (hfits row hrow).1 hfit]
    exact hrow
  · intro hground r' hr'
    rw [hr] at hr'
    cases hr'
    exact ⟨_, hground, (hfits _ hground).2 rfl⟩

/-- The matches of the body admit a valuation exactly if all its instances are rows. -/
theorem Suits.admits_boundBody_iff
    (h : db.Suits rule) :
    (∀ b ∈ db.boundBody rule.body, b.Admits v) ↔
      ∀ predicate ∈ rule.body, db.HasRow predicate.name (predicate.ground v) := by
  rw [Database.admits_boundBody_iff h.clean h.terms_ne_empty, h.satisfies_iff]
  refine and_iff_right fun predicate hpredicate r hr => ?_
  obtain ⟨_, _, term, hmem, hvariable⟩ := h.body predicate hpredicate
  exact ⟨term, h.isVisible_of_mem hpredicate hr hmem hvariable⟩

/-- Each head term is a variable of the body. -/
theorem Suits.binds
    (h : db.Suits rule)
    {term : String}
    (hterm : term ∈ rule.head.terms) :
    db.Binds rule.body term := by
  obtain ⟨hvariable, predicate, hpredicate, hmem⟩ := h.bound term hterm
  obtain ⟨⟨r, hr, _⟩, _⟩ := h.body predicate hpredicate
  exact ⟨predicate, hpredicate, r, hr, h.isVisible_of_mem hpredicate hr hmem hvariable⟩

theorem Suits.boundBody_ne_nil
    (h : db.Suits rule) :
    db.boundBody rule.body ≠ [] := by
  obtain ⟨predicate, hpredicate⟩ := List.exists_mem_of_ne_nil _ h.body_ne_nil
  obtain ⟨⟨r, hr, _⟩, _⟩ := h.body predicate hpredicate
  exact boundBody_ne_nil_iff.2 ⟨predicate, hpredicate, r, hr⟩

/-- A rule that suits the database derives the head instances of the valuations under which its body
holds. -/
theorem Suits.exists_derived
    (h : db.Suits rule) :
    ∃ derived, db.derive rule = .ok derived ∧
      ∀ row, row ∈ derived.rows ↔
        ∃ v, (∀ predicate ∈ rule.body, db.HasRow predicate.name (predicate.ground v)) ∧
          row = rule.head.terms.map v := by
  obtain ⟨head, hhead, hlength, hcolumns⟩ := h.head
  obtain ⟨first, rest, hbody⟩ := List.exists_cons_of_ne_nil h.boundBody_ne_nil
  have hprojected :
      Relation.projectedSchema (rest.foldl Relation.join first).schema rule.head.terms =
        rule.head.terms := by
    refine Relation.projectedSchema_eq h.head_nodup fun term hterm => ?_
    rw [(joined_boundBody hbody).2.1, exists_column_iff_binds h.clean h.terms_ne_empty]
    exact h.binds hterm
  have hne : head.schema ≠ [] := by
    intro hnil
    rw [Relation.arity, hnil] at hlength
    exact h.head_ne_nil (List.length_eq_zero_iff.1 hlength)
  obtain ⟨derived, hderive, hrows⟩ :=
    exists_derived_of_length hhead (h.clean _ head hhead).nodup hcolumns hne hbody
      (by rw [hprojected, hlength])
  refine ⟨derived, hderive, fun row => ?_⟩
  simp only [hrows, hprojected, h.admits_boundBody_iff]

/-- The terms of the head are variables, so its instance has their values. -/
theorem Suits.ground_head
    (h : db.Suits rule)
    (v : String → String) :
    rule.head.ground v = rule.head.terms.map v :=
  List.map_congr_left fun term hterm => termValue_of_not_isConstant (h.bound term hterm).1

end Deriving

section Restricting

/-- The rows that pass a test. -/
def restrict (db : Database) (keep : String → Row → Bool) : Database :=
  ⟨db.byName.filterMap fun name r => some { r with rows := r.rows.filter (keep name) }⟩

variable {db : Database} {keep : String → Row → Bool}

theorem relation?_restrict (db : Database) (keep : String → Row → Bool) (name : String) :
    (db.restrict keep).relation? name =
      (db.relation? name).map fun r => { r with rows := r.rows.filter (keep name) } := by
  unfold restrict relation?
  rw [OrderedMap.get?_filterMap]
  cases db.byName.get? name <;> rfl

theorem restrict_le (db : Database) (keep : String → Row → Bool) :
    db.restrict keep ≤ db := by
  refine le_of_forall ?_ ?_
  · intro name r hr
    rw [relation?_restrict] at hr
    obtain ⟨s, hs, rfl⟩ := Option.map_eq_some_iff.1 hr
    exact ⟨s, hs, rfl, rfl, fun row hrow => (OrderedSet.mem_filter.1 hrow).1⟩
  · intro name hnone
    rw [relation?_restrict] at hnone
    exact Option.map_eq_none_iff.1 hnone

theorem hasRow_restrict_iff
    {name : String} {row : Row} :
    (db.restrict keep).HasRow name row ↔ db.HasRow name row ∧ keep name row = true := by
  unfold HasRow
  rw [relation?_restrict]
  cases db.relation? name with
  | none => simp
  | some r => simp

end Restricting

end Database

namespace Program

/-- The rows that follow from the facts by the rules. -/
inductive Derivable (program : Program) : String → Row → Prop
  | fact {fact : Predicate} :
      fact ∈ program.facts → Derivable program fact.name fact.terms
  | rule {rule : Rule} (v : String → String) :
      rule ∈ program.rules →
      (∀ predicate ∈ rule.body, Derivable program predicate.name (predicate.ground v)) →
      Derivable program rule.head.name (rule.head.ground v)

section Correctness

variable {program : Program} {db : Database}

/-- In every database above the loaded one, the rules of a checked program of the grammar's shape
suit. -/
theorem suits_of_le
    (hshaped : program.Shaped)
    (hchecked : program.Checked)
    (hheads : ∀ rule ∈ program.rules, rule.head.terms.Nodup)
    (hbodies :
      ∀ rule ∈ program.rules, ∀ predicate ∈ rule.body,
        ∃ term ∈ predicate.terms, TermKind.isConstant term = false)
    (hle : Database.ofProgram program ≤ db)
    (hwellFormed : ∀ name r, db.relation? name = some r → r.WellFormed)
    {rule : Rule}
    (hrule : rule ∈ program.rules) :
    db.Suits rule where
  clean name r hr :=
    ⟨Database.nodup_schema_of_le hle hchecked hr, hwellFormed name r hr⟩
  body_ne_nil := (hshaped.bodies rule hrule).1
  body := by
    intro predicate hpredicate
    obtain ⟨_, _, r, hr, _, harity⟩ :=
      Database.exists_relation_of_le hle (hchecked.bodies rule hrule predicate hpredicate)
    exact ⟨⟨r, hr, harity.symm⟩, hshaped.body_terms hrule predicate hpredicate,
      hbodies rule hrule predicate hpredicate⟩
  head := by
    obtain ⟨_, _, r, hr, _, harity⟩ :=
      Database.exists_relation_of_le hle (hchecked.heads rule hrule)
    exact ⟨r, hr, harity.symm, (hshaped.columns_of_le hle hr).2⟩
  head_ne_nil := (hshaped.heads rule hrule).nonempty
  head_nodup := hheads rule hrule
  bound := hchecked.bound rule hrule

/-- Every model has the derivable rows. -/
theorem hasRow_of_derivable
    (hchecked : program.Checked)
    (hmodel : db ∈ program.models)
    (hsuits : ∀ rule ∈ program.rules, db.Suits rule)
    {name : String} {row : Row}
    (h : program.Derivable name row) :
    db.HasRow name row := by
  induction h with
  | fact hfact =>
      obtain ⟨r, hr, hrow⟩ := Database.exists_row_of_fact hchecked hfact
      exact Database.hasRow_mono hmodel.1 ⟨r, hr, hrow⟩
  | @rule rule v hrule _ ih =>
      have hsuit := hsuits rule hrule
      obtain ⟨derived, hderive, hrows⟩ := hsuit.exists_derived
      obtain ⟨head, hhead, _⟩ := hsuit.head
      rw [hsuit.ground_head]
      exact ⟨head, hhead, hmodel.2 rule hrule derived head hderive hhead _
        ((hrows _).2 ⟨v, ih, rfl⟩)⟩

open Classical in
/-- The derivable rows of a database. -/
noncomputable def derivablePart (program : Program) (db : Database) : Database :=
  db.restrict fun name row => decide (program.Derivable name row)

open Classical in
theorem hasRow_derivablePart_iff
    {name : String} {row : Row} :
    (program.derivablePart db).HasRow name row ↔
      db.HasRow name row ∧ program.Derivable name row := by
  unfold derivablePart
  rw [Database.hasRow_restrict_iff, decide_eq_true_iff]

theorem derivablePart_le (program : Program) (db : Database) :
    program.derivablePart db ≤ db :=
  Database.restrict_le db _

/-- The loaded rows are derivable. -/
theorem ofProgram_le_derivablePart
    (hle : Database.ofProgram program ≤ db) :
    Database.ofProgram program ≤ program.derivablePart db := by
  refine Database.le_of_forall ?_ ?_
  · intro name r hr
    obtain ⟨s, hs, hrs⟩ := Database.exists_le_of_le hle hr
    obtain ⟨t, ht, hts⟩ := Database.exists_ge_of_le (program.derivablePart_le db) hs
    refine ⟨t, ht, hrs.1.trans hts.1.symm, hrs.2.1.trans hts.2.1.symm, fun row hrow => ?_⟩
    obtain ⟨fact, hfact, rfl, rfl⟩ := Database.exists_fact_of_mem hr hrow
    rw [← Database.hasRow_iff ht, hasRow_derivablePart_iff, Database.hasRow_iff hs]
    exact ⟨hrs.2.2 _ hrow, Derivable.fact hfact⟩
  · intro name hnone
    exact (Database.eq_none_iff_of_le (program.derivablePart_le db)).2
      ((Database.eq_none_iff_of_le hle).1 hnone)

/-- The derivable rows of a model are a model. -/
theorem derivablePart_mem_models
    (hmodel : db ∈ program.models)
    (hsuits : ∀ rule ∈ program.rules, (program.derivablePart db).Suits rule) :
    program.derivablePart db ∈ program.models := by
  refine ⟨ofProgram_le_derivablePart hmodel.1,
    fun rule hrule derived head hderive hhead row hrow => ?_⟩
  have hsuit := hsuits rule hrule
  obtain ⟨derived', hderive', hrows⟩ := hsuit.exists_derived
  rw [hderive] at hderive'
  cases hderive'
  obtain ⟨v, hbody, rfl⟩ := (hrows row).1 hrow
  rw [← Database.hasRow_iff hhead, hasRow_derivablePart_iff]
  constructor
  · -- The whole model derives the row, too, and is closed under the rule.
    have hle := program.derivablePart_le db
    obtain ⟨head', hhead', _⟩ := Database.exists_le_of_le hle hhead
    obtain ⟨larger, hlarge, hsub⟩ := Database.exists_le_of_derive hle hderive
    exact ⟨head', hhead', hmodel.2 rule hrule larger head' hlarge hhead' _ (hsub.2.2 _ hrow)⟩
  · rw [← hsuit.ground_head]
    refine Derivable.rule v hrule fun predicate hpredicate => ?_
    exact (hasRow_derivablePart_iff.1 (hbody predicate hpredicate)).2

/-- In a program of the grammar's shape without issues, with different variables in each head and a
variable in each body predicate, the evaluation gives each relation its derivable rows, under all
settings. -/
theorem evaluation_derives
    (program : Program)
    (hshaped : program.Shaped)
    (hissues : program.issues = [])
    (hheads : ∀ rule ∈ program.rules, rule.head.terms.Nodup)
    (hbodies :
      ∀ rule ∈ program.rules, ∀ predicate ∈ rule.body,
        ∃ term ∈ predicate.terms, TermKind.isConstant term = false)
    (settings : EvaluationSettings)
    (name : String) (row : Row) :
    (Evaluation.ofProgram settings program).database.HasRow name row ↔
      program.Derivable name row := by
  have hchecked := checked_of_issues_eq_nil hissues
  have hleast := isLeast_database hshaped.factsLiteral settings
  have hsound : (Evaluation.ofProgram settings program).database.Sound :=
    Session.sound_evaluateRules (Database.sound_ofProgram program) _ settings.optimize
  have hpart := program.derivablePart_le (Evaluation.ofProgram settings program).database
  constructor
  · intro hrow
    have hsuits (rule : Rule) (hrule : rule ∈ program.rules) :
        (program.derivablePart (Evaluation.ofProgram settings program).database).Suits rule := by
      refine suits_of_le hshaped hchecked hheads hbodies (ofProgram_le_derivablePart hleast.1.1)
        (fun name r hr => ?_) hrule
      obtain ⟨s, hs, hrs⟩ := Database.exists_le_of_le hpart hr
      exact Relation.wellFormed_of_le hrs (hsound.wellFormed name s hs)
    have hmodel := derivablePart_mem_models hleast.1 hsuits
    exact (hasRow_derivablePart_iff.1 (Database.hasRow_mono (hleast.2 hmodel) hrow)).2
  · refine hasRow_of_derivable hchecked hleast.1 fun rule hrule => ?_
    exact suits_of_le hshaped hchecked hheads hbodies hleast.1.1 hsound.wellFormed hrule

theorem ancestry_derives :
    ancestry.Shaped ∧ ancestry.issues = [] ∧
      (∀ rule ∈ ancestry.rules, rule.head.terms.Nodup) ∧
      (∀ rule ∈ ancestry.rules, ∀ predicate ∈ rule.body,
        ∃ term ∈ predicate.terms, TermKind.isConstant term = false) ∧
      ((Evaluation.ofProgram { optimize := true } ancestry).database.HasRow
          "Ancestor" ["'ann'", "'cid'"] ↔
        ancestry.Derivable "Ancestor" ["'ann'", "'cid'"]) := by
  have hshaped : ancestry.Shaped := by decide +kernel
  have hissues : ancestry.issues = [] := by decide
  have hheads : ∀ rule ∈ ancestry.rules, rule.head.terms.Nodup := by decide
  have hbodies : ∀ rule ∈ ancestry.rules, ∀ predicate ∈ rule.body,
      ∃ term ∈ predicate.terms, TermKind.isConstant term = false := by decide
  exact ⟨hshaped, hissues, hheads, hbodies,
    evaluation_derives ancestry hshaped hissues hheads hbodies { optimize := true } _ _⟩

end Correctness

end Program

end Semantics

end Datalog
