import Datalog.Proofs.Evaluation.Tracing
import Mathlib.Algebra.Group.Nat.Defs

/-!
# Monotone rules over a finite universe

**Rules.** Of two databases with the same names and schemas, let one contain the other.  A rule
meets the same obstacle in both, or it derives from the larger one at least what it derives from the
smaller one.

**Universe.** `Moment` lists the databases that an evaluation goes through: while schemes are
declared, while facts are loaded, and between any two evaluations of rules.  No value ever comes in
but with a fact.

**Results.** At every moment all values belong to the domain of the program, whatever constants and
expressions its rules have.  So a relation has at most as many rows as its columns can be filled in
from the domain.
-/

namespace Datalog

section FiniteUniverse

namespace Database

section Monotone

variable {d e : Database}

/-- A database that contains another one of the same names and schemas lies above it. -/
theorem le_of_contained
    (hd : d.Keyed)
    (he : e.Keyed)
    (hnames : d.byName.keys = e.byName.keys)
    (hcontained : ∀ name r s, d.relation? name = some r → e.relation? name = some s →
      r.schema = s.schema ∧ ∀ row ∈ r.rows, row ∈ s.rows) :
    d ≤ e := by
  have hdeclared (name : String) :
      (d.relation? name).isSome = true ↔ (e.relation? name).isSome = true := by
    unfold relation?
    rw [← OrderedMap.mem_keySet_iff, ← OrderedMap.mem_keySet_iff, ← OrderedSet.mem_toList,
      ← OrderedSet.mem_toList]
    exact iff_of_eq (congrArg (name ∈ ·) hnames)
  refine le_of_forall ?_ ?_
  · intro name r hr
    obtain ⟨s, hs⟩ := Option.isSome_iff_exists.1 ((hdeclared name).1 (Option.isSome_of_mem hr))
    obtain ⟨hschema, hrows⟩ := hcontained name r s hr hs
    exact ⟨s, hs, (hd name r hr).trans (he name s hs).symm, hschema, hrows⟩
  · intro name hnone
    rw [← Option.not_isSome_iff_eq_none] at hnone ⊢
    rw [← hdeclared]
    exact hnone

/-- If a database contains another one of the same names and schemas, a rule derives a relation from
one exactly if it does from the other, and otherwise meets the same obstacle.  What it derives from
the smaller one it derives from the larger one, too, under the name and the schema that its head
relation has in both. -/
theorem derivation_monotone
    (hd : d.Sound)
    (he : e.Sound)
    (hnames : d.byName.keys = e.byName.keys)
    (hcontained : ∀ name r s, d.relation? name = some r → e.relation? name = some s →
      r.schema = s.schema ∧ ∀ row ∈ r.rows, row ∈ s.rows)
    (rule : Rule) :
    ((∃ derived, d.derive rule = .ok derived) ↔ ∃ derived, e.derive rule = .ok derived) ∧
      (∀ obstacle, d.derive rule = .error obstacle ↔ e.derive rule = .error obstacle) ∧
      ∀ derived derived', d.derive rule = .ok derived → e.derive rule = .ok derived' →
        (∀ row ∈ derived.rows, row ∈ derived'.rows) ∧
          ∃ head, d.relation? rule.head.name = some head ∧
            derived.name = rule.head.name ∧ derived.schema = head.schema ∧
            derived'.name = rule.head.name ∧ derived'.schema = head.schema := by
  have hle : d ≤ e := le_of_contained hd.keyed he.keyed hnames hcontained
  rcases derive_mono hle rule with ⟨obstacle, hsmall, hlarge⟩ | ⟨small, large, hsmall, hlarge, hrel⟩
  · rw [hsmall, hlarge]
    exact ⟨by simp, fun _ => Iff.rfl, fun _ _ h => by cases h⟩
  · obtain ⟨head, hhead, hname, hschema⟩ := exists_head_of_derive hsmall
    have hhead' : small.name = rule.head.name := hname.trans (hd.keyed _ head hhead)
    rw [hsmall, hlarge]
    refine ⟨by simp, by simp, ?_⟩
    rintro _ _ ⟨⟩ ⟨⟩
    exact ⟨hrel.2.2, head, hhead, hhead', hschema, hrel.1.symm.trans hhead',
      hrel.2.1.symm.trans hschema⟩

/-- One pair, and an empty relation for what is derived from it. -/
def onePair : Database :=
  ofProgram ⟨[⟨"P", ["a", "b"]⟩, ⟨"H", ["a", "b"]⟩], [⟨"P", ["'1'", "'2'"]⟩], [], []⟩

/-- The pair the other way round, too. -/
def turnedPair : Database :=
  onePair.consequence ⟨⟨"P", ["y", "x"]⟩, [⟨"P", ["x", "y"]⟩]⟩

/-- A rule derives more when the pair has been turned around. -/
theorem derivation_monotone_of_onePair :
    let rule : Rule := ⟨⟨"H", ["x", "y"]⟩, [⟨"P", ["x", "y"]⟩, ⟨"P", ["x", "z"]⟩]⟩
    onePair.Sound ∧ turnedPair.Sound ∧ onePair.byName.keys = turnedPair.byName.keys ∧
      (∀ name r s, onePair.relation? name = some r → turnedPair.relation? name = some s →
        r.schema = s.schema ∧ ∀ row ∈ r.rows, row ∈ s.rows) ∧
      ∃ derived derived',
        onePair.derive rule = .ok derived ∧ turnedPair.derive rule = .ok derived' ∧
        derived.rows.toList = [["'1'", "'2'"]] ∧
        derived'.rows.toList = [["'1'", "'2'"], ["'2'", "'1'"]] ∧
        ∀ row ∈ derived.rows, row ∈ derived'.rows := by
  have hsmall :
      onePair.derive ⟨⟨"H", ["x", "y"]⟩, [⟨"P", ["x", "y"]⟩, ⟨"P", ["x", "z"]⟩]⟩ =
        .ok ⟨"H", ["a", "b"], OrderedSet.ofList [["'1'", "'2'"]]⟩ := by decide +kernel
  have hlarge :
      turnedPair.derive ⟨⟨"H", ["x", "y"]⟩, [⟨"P", ["x", "y"]⟩, ⟨"P", ["x", "z"]⟩]⟩ =
        .ok ⟨"H", ["a", "b"], OrderedSet.ofList [["'1'", "'2'"], ["'2'", "'1'"]]⟩ := by
    unfold turnedPair consequence derive boundBody Matching.bind Matching.select
      Matching.firstColumns Matching.constants Matching.repetitions Matching.variableNames
    simp only [TermKind.isConstant_eq]
    cbv
  have hsound : onePair.Sound := sound_ofProgram _
  have hturned : turnedPair.Sound := hsound.consequence _
  have hle : onePair ≤ turnedPair := le_consequence hsound.keyed _
  have hnames : onePair.byName.keys = turnedPair.byName.keys := keys_eq_of_le hle
  have hcontained (name : String) (r s : Relation) (hr : onePair.relation? name = some r)
      (hs : turnedPair.relation? name = some s) :
      r.schema = s.schema ∧ ∀ row ∈ r.rows, row ∈ s.rows := by
    obtain ⟨s', hs', hrs⟩ := exists_le_of_le hle hr
    rw [hs] at hs'
    cases hs'
    exact hrs.2
  obtain ⟨_, _, hmore⟩ := derivation_monotone hsound hturned hnames hcontained _
  exact ⟨hsound, hturned, hnames, hcontained, _, _, hsmall, hlarge, by cbv, by cbv,
    (hmore _ _ hsmall hlarge).1⟩

end Monotone

end Database

namespace Session

theorem over_fires
    {s t : Session} {evaluations : List (Rule × RuleTrace)} {p : String → Prop}
    (h : s.database.Over p)
    (hfires : s.Fires evaluations t) :
    t.database.Over p := by
  induction hfires with
  | nil => exact h
  | cons _ ih => exact ih (over_fire h _)

end Session

namespace Program

section Universe

variable {program : Program} {settings : EvaluationSettings} {db : Database}

/-- A database that the evaluation of a program goes through: some of the schemes are declared; or
all are, and some of the facts are loaded; or all are, and some of the reported evaluations of rules
are done. -/
inductive Moment (program : Program) (settings : EvaluationSettings) : Database → Prop
  | declaring {schemes later : List Predicate} :
      program.schemes = schemes ++ later →
      Moment program settings (Database.ofSchemes schemes)
  | loading {facts later : List Predicate} :
      program.facts = facts ++ later →
      Moment program settings
        (facts.foldl Database.loadFact (Database.ofSchemes program.schemes))
  | evaluating {earlier later : List (Rule × RuleTrace)} {s : Session} :
      (Evaluation.ofProgram settings program).report.rules.evaluations program.rules =
        earlier ++ later →
      (Session.ofDatabase (Database.ofProgram program)).Fires earlier s →
      Moment program settings s.database

/-- The evaluation ends with the last one of its moments. -/
theorem moment_database (program : Program) (settings : EvaluationSettings) :
    program.Moment settings (Evaluation.ofProgram settings program).database :=
  Moment.evaluating (List.append_nil _).symm
    (Session.runsThrough_evaluateRules (DependencyGraph.positions_ofRules program.rules)
      (Session.ofDatabase (Database.ofProgram program)) settings.optimize).2.fires

theorem Moment.sound
    (h : program.Moment settings db) :
    db.Sound := by
  cases h with
  | declaring _ => exact Database.sound_ofSchemes _
  | @loading facts _ _ => exact Database.sound_ofProgram { program with facts := facts }
  | evaluating _ hfires =>
      exact (Session.above_fires ⟨Database.sound_ofProgram program, le_refl _⟩ hfires).1

/-- At every moment each value comes from a fact. -/
theorem Moment.over
    (h : program.Moment settings db) :
    db.Over fun value => ∃ fact ∈ program.facts, value ∈ fact.terms := by
  cases h with
  | @declaring schemes _ _ =>
      let declared : Program := { program with schemes := schemes, facts := [] }
      have hnone : ∀ fact ∈ declared.facts, ∀ term ∈ fact.terms,
          ∃ fact ∈ program.facts, term ∈ fact.terms := nofun
      exact Database.over_ofProgram hnone
  | @loading facts later hfacts =>
      let loaded : Program := { program with facts := facts }
      have hsome : ∀ fact ∈ loaded.facts, ∀ term ∈ fact.terms,
          ∃ fact ∈ program.facts, term ∈ fact.terms :=
        fun fact hfact term hterm => ⟨fact, hfacts ▸ List.mem_append_left later hfact, hterm⟩
      exact Database.over_ofProgram hsome
  | evaluating _ hfires =>
      refine Session.over_fires (Database.over_ofProgram ?_) hfires
      exact fun fact hfact value hvalue => ⟨fact, hfact, hvalue⟩

theorem mem_domain
    {value : String} :
    value ∈ program.domain ↔ ∃ fact ∈ program.facts, value ∈ fact.terms := by
  unfold domain
  rw [OrderedSet.mem_ofList, List.mem_flatMap]

/-- At every moment of the evaluation of any program, under all settings, each value of each row is
a term of a fact and so belongs to the domain.  Hence a relation has at most as many rows as its
columns can be filled in from the domain. -/
theorem evaluation_invents_nothing
    (h : program.Moment settings db)
    {name : String} {r : Relation}
    (hr : db.relation? name = some r) :
    (∀ row ∈ r.rows, ∀ value ∈ row,
      value ∈ program.domain ∧ ∃ fact ∈ program.facts, value ∈ fact.terms) ∧
      r.size ≤ program.domain.size ^ r.arity := by
  have hover := h.over name r hr
  have hdomain : r.Over (· ∈ program.domain) :=
    fun row hrow value hvalue => mem_domain.2 (hover row hrow value hvalue)
  have hbound : r.size ≤ program.domain.size ^ r.arity :=
    Relation.size_le_pow (h.sound.wellFormed name r hr) hdomain
  exact ⟨fun row hrow value hvalue => ⟨hdomain row hrow value hvalue, hover row hrow value hvalue⟩,
    hbound⟩

/-- A rule with a constant in its head that no fact has, a constant in its body, an expression and
an empty term. -/
def branding : Rule :=
  ⟨⟨"H", ["a", "x+1", "'9'"]⟩, [⟨"P", ["", "x+1"]⟩, ⟨"P", ["x+1", "'2'"]⟩]⟩

/-- Two pairs with this rule. -/
def branded : Program where
  schemes := [⟨"P", ["a", "b"]⟩, ⟨"H", ["a", "b"]⟩]
  facts := [⟨"P", ["'1'", "'2'"]⟩, ⟨"P", ["'2'", "'2'"]⟩]
  rules := [branding]
  queries := [⟨"H", ["x", "'9'"]⟩]

/-- The rule fires, and neither its constants nor its expression come into the relation. -/
theorem branded_invents_nothing :
    let db := (Evaluation.ofProgram { optimize := true } branded).database
    branded.Moment { optimize := true } db ∧ branded.domain.toList = ["'1'", "'2'"] ∧
      ∃ r, db.relation? "H" = some r ∧ r.schema = ["a", "b"] ∧
        (∀ row ∈ [["'1'", "'2'"], ["'2'", "'2'"]], row ∈ r.rows) ∧
        (∀ row ∈ r.rows, ∀ value ∈ row, value ∈ branded.domain) ∧
        r.size ≤ branded.domain.size ^ r.arity := by
  intro db
  have hmoment : branded.Moment { optimize := true } db := moment_database branded _
  have hfired : ((Database.ofProgram branded).consequence branding).relation? "H" =
      some ⟨"H", ["a", "b"], OrderedSet.ofList [["'1'", "'2'"], ["'2'", "'2'"]]⟩ := by
    unfold Database.consequence Database.derive Database.boundBody Matching.bind Matching.select
      Matching.firstColumns Matching.constants Matching.repetitions Matching.variableNames
    simp only [TermKind.isConstant_eq]
    cbv
  have hliteral : branded.FactsLiteral := by decide
  obtain ⟨hloaded, hclosed⟩ := (isLeast_database hliteral { optimize := true }).1
  have hle := Database.consequence_le (Database.sound_ofProgram branded).keyed hloaded
    (hclosed branding List.mem_cons_self)
  obtain ⟨r, hr, _, hschema, hrows⟩ := Database.exists_le_of_le hle hfired
  obtain ⟨hvalues, hbound⟩ := evaluation_invents_nothing hmoment hr
  exact ⟨hmoment, by cbv, r, hr, hschema.symm,
    fun row hrow => hrows row (OrderedSet.mem_ofList.2 hrow),
    fun row hrow value hvalue => (hvalues row hrow value hvalue).1, hbound⟩

end Universe

end Program

end FiniteUniverse

end Datalog
