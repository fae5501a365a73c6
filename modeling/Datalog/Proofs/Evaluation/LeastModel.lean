import Datalog.Evaluation
import Datalog.Proofs.Evaluation.Loading
import Datalog.Proofs.Evaluation.Saturation
import Datalog.Proofs.Graph.Decomposition
import Datalog.Proofs.Source.Shape
import Mathlib.Order.Bounds.Basic

/-!
# The evaluation of a program is its least model

**Model.** A model of a program is a database with the relations and schemas that the program
declares and at least the rows of its facts, which is closed under every rule of the program.

**Order.** A component never writes what an earlier one reads.  So the rules of the earlier
components stay closed while the later components are evaluated.

**Results.** Evaluated component by component or all rules together, a program whose facts are
string literals ends with the least model.
-/

namespace Datalog

section LeastModel

namespace Session

section Frame

variable {s : Session} {e : Database}

/-- A session below a database that is closed under a rule stays below it. -/
theorem below_fire
    {rule : Rule}
    (hclosed : e.ClosedUnder rule)
    (h : s.database.Sound ∧ s.database ≤ e) :
    (s.fire rule).session.database.Sound ∧ (s.fire rule).session.database ≤ e := by
  refine ⟨sound_fire h.1 rule, ?_⟩
  rw [database_fire]
  exact Database.consequence_le h.1.keyed h.2 hclosed

/-- Components leave a relation alone that none of their rules derives. -/
theorem relation?_evaluateInTurn_of_ne
    (hs : s.database.Sound)
    {components : List DependencyGraph} {name : String}
    (hname : ∀ c ∈ components, ∀ rule ∈ c.memberRules, name ≠ rule.head.name) :
    (s.evaluateInTurn components).session.database.relation? name = s.database.relation? name := by
  have hfire (c : DependencyGraph) (hc : c ∈ components) (rule : Rule)
      (hrule : rule ∈ c.memberRules) (t : Session)
      (ht : t.database.Sound ∧ t.database.relation? name = s.database.relation? name) :
      (t.fire rule).session.database.Sound ∧
        (t.fire rule).session.database.relation? name = s.database.relation? name := by
    refine ⟨sound_fire ht.1 rule, ?_⟩
    rw [database_fire]
    exact (Database.relation?_consequence_of_ne ht.1.keyed (hname c hc rule hrule)).trans ht.2
  exact (evaluateInTurn_keeps hfire ⟨hs, rfl⟩).2

theorem evaluateComponent_le
    (hs : s.database.Sound)
    {component : DependencyGraph}
    (hle : s.database ≤ e)
    (hclosed : ∀ rule ∈ component.memberRules, e.ClosedUnder rule) :
    (s.evaluateComponent component).session.database ≤ e :=
  (evaluateComponent_keeps (p := fun t => t.database.Sound ∧ t.database ≤ e)
    (fun rule hrule _ => below_fire (hclosed rule hrule)) ⟨hs, hle⟩).2

theorem evaluateInTurn_le
    (hs : s.database.Sound)
    {components : List DependencyGraph}
    (hle : s.database ≤ e)
    (hclosed : ∀ c ∈ components, ∀ rule ∈ c.memberRules, e.ClosedUnder rule) :
    (s.evaluateInTurn components).session.database ≤ e :=
  (evaluateInTurn_keeps (p := fun t => t.database.Sound ∧ t.database ≤ e)
    (fun c hc rule hrule _ => below_fire (hclosed c hc rule hrule)) ⟨hs, hle⟩).2

end Frame

section Order

variable {s : Session}

/-- No rule of an earlier component reads what a rule of a later one derives. -/
def ReadsBackward (components : List DependencyGraph) : Prop :=
  components.Pairwise fun component later =>
    ∀ reader ∈ component.memberRules, ∀ writer ∈ later.memberRules,
      ∀ predicate ∈ reader.body, predicate.name ≠ writer.head.name

/-- Components in turn leave a database that is closed under all their rules. -/
theorem Faithful.closedUnder_evaluateInTurn
    (h : s.Faithful)
    {components : List DependencyGraph}
    (hreads : ∀ c ∈ components, c.ShowsReads)
    (horder : ReadsBackward components) :
    ∀ c ∈ components, ∀ rule ∈ c.memberRules,
      (s.evaluateInTurn components).session.database.ClosedUnder rule := by
  induction components generalizing s with
  | nil => exact nofun
  | cons component rest ih =>
      obtain ⟨hlater, hrest⟩ := List.pairwise_cons.1 horder
      have hrun := h.evaluateComponent component
      intro c hc rule hrule
      rcases List.mem_cons.1 hc with rfl | hc
      · have hclosed := h.closedUnder_evaluateComponent (hreads c List.mem_cons_self) rule hrule
        refine hclosed.of_le (le_evaluateInTurn hrun.sound rest) fun predicate hpredicate => ?_
        exact (relation?_evaluateInTurn_of_ne hrun.sound fun later hmem writer hwriter =>
          hlater later hmem rule hrule writer hwriter predicate hpredicate).symm
      · exact ih hrun (fun other hother => hreads other (List.mem_cons_of_mem _ hother)) hrest
          c hc rule hrule

end Order

section Schedule

variable {s : Session} {g : DependencyGraph}

theorem readsBackward_componentGraphs
    (hg : g.WellFormed)
    (hreads : g.ShowsReads) :
    ReadsBackward g.componentGraphs := by
  have hpairwise :=
    DependencyGraph.pairwise_componentGraphs (DependencyGraph.partition_components hg)
  refine hpairwise.imp_of_mem ?_
  intro component later hcomponent hlater hapart reader hreader writer hwriter predicate
    hpredicate hname
  obtain ⟨c, _, rfl⟩ := DependencyGraph.exists_component_of_mem hcomponent
  obtain ⟨d, _, rfl⟩ := DependencyGraph.exists_component_of_mem hlater
  obtain ⟨a, node, ha, hnode, rfl⟩ := DependencyGraph.mem_memberRules_subgraph.1 hreader
  obtain ⟨b, node', hb, hnode', rfl⟩ := DependencyGraph.mem_memberRules_subgraph.1 hwriter
  have hina := DependencyGraph.contains_subgraph.2
    ⟨ha, DependencyGraph.contains_iff.2 ⟨node, hnode⟩⟩
  have hinb := DependencyGraph.contains_subgraph.2
    ⟨hb, DependencyGraph.contains_iff.2 ⟨node', hnode'⟩⟩
  exact (hapart a b hina hinb).2 (hreads a b node node' hnode hnode' ⟨predicate, hpredicate, hname⟩)

theorem mem_memberRules_componentGraphs
    (hg : g.WellFormed)
    {rule : Rule} :
    rule ∈ g.memberRules ↔ ∃ c ∈ g.componentGraphs, rule ∈ c.memberRules := by
  have hpartition := DependencyGraph.partition_components hg
  rw [DependencyGraph.mem_memberRules]
  constructor
  · rintro ⟨id, node, hnode, rfl⟩
    have hid := DependencyGraph.mem_keySet.2 (DependencyGraph.contains_iff.2 ⟨node, hnode⟩)
    obtain ⟨c, hc, hmem⟩ := (hpartition.mem_iff id).1 hid
    refine ⟨g.subgraph c.members, List.mem_map_of_mem hc, ?_⟩
    exact DependencyGraph.mem_memberRules_subgraph.2 ⟨id, node, hmem, hnode, rfl⟩
  · rintro ⟨part, hpart, hrule⟩
    obtain ⟨c, _, rfl⟩ := DependencyGraph.exists_component_of_mem hpart
    obtain ⟨id, node, _, hnode, heq⟩ := DependencyGraph.mem_memberRules_subgraph.1 hrule
    exact ⟨id, node, hnode, heq⟩

/-- Evaluating all rules leaves a database that is closed under all of them. -/
theorem Faithful.closedUnder_evaluateRules
    (h : s.Faithful)
    (hg : g.WellFormed)
    (hreads : g.ShowsReads)
    (optimize : Bool) :
    ∀ rule ∈ g.memberRules,
      (s.evaluateRules g optimize).session.database.ClosedUnder rule := by
  intro rule hrule
  cases optimize with
  | true =>
      obtain ⟨c, hc, hmem⟩ := (mem_memberRules_componentGraphs hg).1 hrule
      have hbackward := readsBackward_componentGraphs hg hreads
      refine h.closedUnder_evaluateInTurn ?_ hbackward c hc rule hmem
      intro part hpart
      obtain ⟨d, _, rfl⟩ := DependencyGraph.exists_component_of_mem hpart
      exact hreads.subgraph d.members
  | false => exact h.closedUnder_evaluateComponent hreads rule hrule

/-- Evaluating all rules adds nothing that a closed database lacks. -/
theorem evaluateRules_le
    {e : Database}
    (hs : s.database.Sound)
    (hg : g.WellFormed)
    (hle : s.database ≤ e)
    (hclosed : ∀ rule ∈ g.memberRules, e.ClosedUnder rule)
    (optimize : Bool) :
    (s.evaluateRules g optimize).session.database ≤ e := by
  cases optimize with
  | true =>
      exact evaluateInTurn_le hs hle fun c hc rule hrule =>
        hclosed rule ((mem_memberRules_componentGraphs hg).2 ⟨c, hc, hrule⟩)
  | false =>
      exact evaluateComponent_le hs hle hclosed

end Schedule

end Session

namespace Program

/-- The values of the facts are string literals. -/
def FactsLiteral (program : Program) : Prop :=
  ∀ fact ∈ program.facts, ∀ term ∈ fact.terms, StringLiteral term

instance (program : Program) : Decidable program.FactsLiteral :=
  inferInstanceAs (Decidable (∀ fact ∈ program.facts, ∀ term ∈ fact.terms, StringLiteral term))

theorem Shaped.factsLiteral
    {program : Program}
    (h : program.Shaped) :
    program.FactsLiteral :=
  fun fact hfact => (h.facts fact hfact).terms

theorem Shaped.body_terms
    {program : Program} {rule : Rule}
    (h : program.Shaped)
    (hrule : rule ∈ program.rules) :
    ∀ predicate ∈ rule.body, ∀ term ∈ predicate.terms, term ≠ "" :=
  fun predicate hpredicate => ((h.bodies rule hrule).2 predicate hpredicate).terms

/-- In every database above the loaded one, a relation has columns, all with a name. -/
theorem Shaped.columns_of_le
    {program : Program} {db : Database}
    (h : program.Shaped)
    (hle : Database.ofProgram program ≤ db)
    {name : String} {r : Relation}
    (hr : db.relation? name = some r) :
    r.schema ≠ [] ∧ ∀ column ∈ r.schema, column ≠ "" := by
  obtain ⟨scheme, hscheme, hschema⟩ := Database.exists_scheme_of_le hle hr
  have hfilled := h.schemes scheme hscheme
  rw [hschema]
  exact ⟨hfilled.nonempty, fun column hcolumn => (hfilled.terms column hcolumn).ne_empty⟩

/-- The databases with the relations and the rows that the program declares, closed under all its
rules. -/
def models (program : Program) : Set Database :=
  {db | Database.ofProgram program ≤ db ∧ ∀ rule ∈ program.rules, db.ClosedUnder rule}

theorem faithful_ofProgram
    {program : Program}
    (h : program.FactsLiteral) :
    (Session.ofDatabase (Database.ofProgram program)).Faithful :=
  Session.faithful_ofDatabase (Database.sound_ofProgram program) (Database.over_ofProgram h)

theorem isLeast_database
    {program : Program}
    (h : program.FactsLiteral)
    (settings : EvaluationSettings) :
    IsLeast program.models (Evaluation.ofProgram settings program).database := by
  have hfaithful := faithful_ofProgram h
  have hg := DependencyGraph.wellFormed_ofRules program.rules
  have hreads := DependencyGraph.showsReads_ofRules program.rules
  constructor
  · refine ⟨Session.le_evaluateRules hfaithful.sound _ settings.optimize, fun rule hrule => ?_⟩
    exact hfaithful.closedUnder_evaluateRules hg hreads settings.optimize rule
      (DependencyGraph.mem_memberRules_ofRules.2 hrule)
  · rintro e ⟨hle, hclosed⟩
    exact Session.evaluateRules_le hfaithful.sound hg hle
      (fun rule hrule => hclosed rule (DependencyGraph.mem_memberRules_ofRules.1 hrule))
      settings.optimize

/-- Every program that is read has string literals as the values of its facts.  Under all settings,
the evaluation of such a program ends with one and the same database, the least model, and with the
same answers. -/
theorem evaluation_isLeast :
    (∀ text program, parse text = .ok program → program.FactsLiteral) ∧
      ∀ program : Program, program.FactsLiteral → ∀ settings settings' : EvaluationSettings,
        (Evaluation.ofProgram settings program).database =
            (Evaluation.ofProgram settings' program).database ∧
          (Evaluation.ofProgram settings program).report.answers =
            (Evaluation.ofProgram settings' program).report.answers ∧
          IsLeast program.models (Evaluation.ofProgram settings program).database := by
  constructor
  · exact fun text program h => (shaped_of_parse h).factsLiteral
  · intro program h settings settings'
    have hleast := isLeast_database h settings
    have hsame := hleast.unique (isLeast_database h settings')
    refine ⟨hsame, ?_, hleast⟩
    change program.queries.map (Evaluation.ofProgram settings program).database.answer =
      program.queries.map (Evaluation.ofProgram settings' program).database.answer
    rw [hsame]

theorem ancestry_isLeast :
    ancestry.FactsLiteral ∧
      (Evaluation.ofProgram { optimize := true } ancestry).database =
        (Evaluation.ofProgram { optimize := false } ancestry).database ∧
      IsLeast ancestry.models (Evaluation.ofProgram { optimize := true } ancestry).database := by
  have hliteral : ancestry.FactsLiteral := by decide
  obtain ⟨hsame, _, hleast⟩ :=
    evaluation_isLeast.2 ancestry hliteral { optimize := true } { optimize := false }
  exact ⟨hliteral, hsame, hleast⟩

end Program

end LeastModel

end Datalog
