import Datalog.Evaluation
import Datalog.Proofs.Evaluation.Termination
import Datalog.Proofs.Graph.SameShape

/-!
# Rules that can stand for each other

**Step.** Two rules derive alike if they have the same head relation and derive the same from every
database.  Firing the one or the other leaves the same session and traces the same rows; only the
text of the rule in the trace differs.

**Run.** So a pass, the passes over a component and a whole schedule agree on lists of rules that
derive alike one by one, as long as the dependency graphs have the same shape.

**Results.** If the rules of two programs derive alike one by one and read relations of the same
names, the programs evaluate to the same database and to the same report, up to the texts of the
rules in the traces.
-/

namespace Datalog

section Interchange

section Texts

/-- The trace without the text of the rule. -/
def RuleTrace.unlabelled (trace : RuleTrace) : RuleTrace :=
  { trace with rule := "" }

/-- The trace of a component without the texts of the rules. -/
def ComponentTrace.unlabelled (trace : ComponentTrace) : ComponentTrace :=
  { trace with traces := trace.traces.map RuleTrace.unlabelled }

/-- The trace of a run without the texts of the rules. -/
def ScheduleTrace.unlabelled : ScheduleTrace → ScheduleTrace
  | byComponent components => byComponent (components.map ComponentTrace.unlabelled)
  | together component => together component.unlabelled

/-- The report without the texts of the rules in its traces. -/
def Report.unlabelled (report : Report) : Report :=
  { report with rules := report.rules.unlabelled }

theorem Passes.added_eq_of_unlabelled
    {passes passes' : Passes}
    (h : passes.traces.map RuleTrace.unlabelled = passes'.traces.map RuleTrace.unlabelled) :
    passes.added = passes'.added := by
  have hany (traces : List RuleTrace) :
      (traces.any fun trace => !trace.derived.isEmpty) =
        (traces.map RuleTrace.unlabelled).any fun trace => !trace.derived.isEmpty := by
    rw [List.any_map]
    rfl
  unfold Passes.added
  rw [hany, h, ← hany]

end Texts

/-- The rules have the same head relation and derive the same from every database. -/
structure Rule.DerivesLike (rule rule' : Rule) : Prop where
  head : rule.head.name = rule'.head.name
  derive_eq : ∀ db : Database, db.derive rule = db.derive rule'

namespace Session

section Run

variable {rule rule' : Rule} {rules rules' : List Rule} {component component' : DependencyGraph}

/-- Firing rules that derive alike leaves the same session and traces the same rows. -/
theorem fire_congr
    (h : rule.DerivesLike rule')
    (s : Session) :
    (s.fire rule).session = (s.fire rule').session ∧
      (s.fire rule).trace.unlabelled = (s.fire rule').trace.unlabelled := by
  unfold fire
  rw [h.derive_eq, h.head]
  cases s.database.derive rule' with
  | error obstacle => exact ⟨rfl, rfl⟩
  | ok derived =>
      cases s.database.relation? rule'.head.name with
      | none => exact ⟨rfl, rfl⟩
      | some head => exact ⟨rfl, rfl⟩

theorem pass_congr
    (h : List.Forall₂ Rule.DerivesLike rules rules')
    (s : Session) :
    (s.pass rules).session = (s.pass rules').session ∧
      (s.pass rules).traces.map RuleTrace.unlabelled =
        (s.pass rules').traces.map RuleTrace.unlabelled := by
  induction h generalizing s with
  | nil => exact ⟨rfl, rfl⟩
  | @cons rule rule' rest rest' hhead _ ih =>
      obtain ⟨hsession, htrace⟩ := fire_congr hhead s
      obtain ⟨hsession', htraces⟩ := ih (s.fire rule).session
      rw [hsession] at hsession' htraces
      simp only [pass, List.map_cons]
      rw [hsession, htrace]
      exact ⟨hsession', congrArg _ htraces⟩

theorem repeatPasses_congr
    (h : List.Forall₂ Rule.DerivesLike rules rules')
    (s : Session) (members : List Nat) (recursive : Bool) (bound number : Nat) :
    let passes := s.repeatPasses members rules recursive bound number
    let passes' := s.repeatPasses members rules' recursive bound number
    passes.1.session = passes'.1.session ∧
      passes.1.traces.map RuleTrace.unlabelled = passes'.1.traces.map RuleTrace.unlabelled ∧
      passes.2 = passes'.2 := by
  induction bound generalizing s number with
  | zero => exact ⟨rfl, rfl, rfl⟩
  | succ bound ih =>
      obtain ⟨hsession, htraces⟩ := pass_congr h s
      have hadded := Passes.added_eq_of_unlabelled htraces
      simp only [repeatPasses]
      rw [hadded]
      split
      · obtain ⟨hlast, hlater, hcount⟩ := ih (s.pass rules).session (number + 1)
        rw [← hsession]
        simp only [List.map_append]
        rw [htraces, hlater]
        exact ⟨hlast, rfl, hcount⟩
      · exact ⟨hsession, htraces, rfl⟩

/-- Components of the same shape whose rules derive alike have the same evaluation. -/
theorem evaluateComponent_congr
    (hshape : component.SameShape component')
    (hrules : List.Forall₂ Rule.DerivesLike component.memberRules component'.memberRules)
    (s : Session) :
    (s.evaluateComponent component).session = (s.evaluateComponent component').session ∧
      (s.evaluateComponent component).trace.unlabelled =
        (s.evaluateComponent component').trace.unlabelled := by
  rw [evaluateComponent_eq, evaluateComponent_eq, hshape.ids_eq, hshape.isRecursive_eq]
  obtain ⟨hsession, htraces, hcount⟩ :=
    repeatPasses_congr hrules s component'.ids component'.isRecursive (s.database.capacity + 1) 1
  unfold saturate
  simp only [ComponentTrace.unlabelled]
  rw [hsession, htraces, hcount]
  exact ⟨rfl, rfl⟩

theorem evaluateInTurn_congr
    {components components' : List DependencyGraph}
    (h : List.Forall₂
      (fun c c' => c.SameShape c' ∧ List.Forall₂ Rule.DerivesLike c.memberRules c'.memberRules)
      components components')
    (s : Session) :
    (s.evaluateInTurn components).session = (s.evaluateInTurn components').session ∧
      (s.evaluateInTurn components).traces.map ComponentTrace.unlabelled =
        (s.evaluateInTurn components').traces.map ComponentTrace.unlabelled := by
  induction h generalizing s with
  | nil => exact ⟨rfl, rfl⟩
  | @cons c c' rest rest' hhead _ ih =>
      obtain ⟨hsession, htrace⟩ := evaluateComponent_congr hhead.1 hhead.2 s
      obtain ⟨hsession', htraces⟩ := ih (s.evaluateComponent c).session
      rw [hsession] at hsession' htraces
      simp only [evaluateInTurn, List.map_cons]
      rw [hsession, htrace]
      exact ⟨hsession', congrArg _ htraces⟩

end Run

/-- Evaluating rules that derive alike and read relations of the same names gives the same session
and the same trace, up to the texts of the rules. -/
theorem evaluateRules_congr
    {rules rules' : List Rule}
    (hnames : List.Forall₂ Rule.SameNames rules rules')
    (hderive : List.Forall₂ Rule.DerivesLike rules rules')
    (s : Session) (optimize : Bool) :
    let run := s.evaluateRules (.ofRules rules) optimize
    let run' := s.evaluateRules (.ofRules rules') optimize
    run.session = run'.session ∧ run.trace.unlabelled = run'.trace.unlabelled := by
  have hshape := DependencyGraph.sameShape_ofRules hnames
  have hpositions := DependencyGraph.positions_ofRules rules
  have hpositions' := DependencyGraph.positions_ofRules rules'
  cases optimize with
  | true =>
      have hparts : List.Forall₂
          (fun c c' => c.SameShape c' ∧
            List.Forall₂ Rule.DerivesLike c.memberRules c'.memberRules)
          (DependencyGraph.ofRules rules).componentGraphs
          (DependencyGraph.ofRules rules').componentGraphs := by
        refine (hshape.componentGraphs (DependencyGraph.wellFormed_ofRules rules)
          (DependencyGraph.wellFormed_ofRules rules')).imp ?_
        rintro _ _ ⟨members, rfl, rfl⟩
        have hpart := hshape.subgraph members
        exact ⟨hpart, hpart.memberRules (hpositions.subgraph members)
          (hpositions'.subgraph members) hderive⟩
      obtain ⟨hsession, htraces⟩ := evaluateInTurn_congr hparts s
      exact ⟨hsession, congrArg ScheduleTrace.byComponent htraces⟩
  | false =>
      obtain ⟨hsession, htrace⟩ :=
        evaluateComponent_congr hshape (hshape.memberRules hpositions hpositions' hderive) s
      exact ⟨hsession, congrArg ScheduleTrace.together htrace⟩

end Session

namespace Program

/-- Programs of the same schemes, facts and queries, whose rules derive alike and read relations of
the same names, evaluate to the same database and report, up to the texts of the rules. -/
theorem evaluation_congr
    {program program' : Program}
    (hschemes : program.schemes = program'.schemes)
    (hfacts : program.facts = program'.facts)
    (hqueries : program.queries = program'.queries)
    (hnames : List.Forall₂ Rule.SameNames program.rules program'.rules)
    (hderive : List.Forall₂ Rule.DerivesLike program.rules program'.rules)
    (settings : EvaluationSettings) :
    let evaluation := Evaluation.ofProgram settings program
    let evaluation' := Evaluation.ofProgram settings program'
    evaluation.database = evaluation'.database ∧
      evaluation.report.unlabelled = evaluation'.report.unlabelled := by
  have hloaded : Database.ofProgram program = Database.ofProgram program' := by
    unfold Database.ofProgram
    rw [hschemes, hfacts]
  have hg := DependencyGraph.wellFormed_ofRules program.rules
  have hg' := DependencyGraph.wellFormed_ofRules program'.rules
  have hshape := DependencyGraph.sameShape_ofRules hnames
  obtain ⟨hsession, htrace⟩ := Session.evaluateRules_congr hnames hderive
    (Session.ofDatabase (Database.ofProgram program)) settings.optimize
  simp only [Evaluation.ofProgram, Report.unlabelled]
  rw [← hloaded, hsession, htrace, hqueries, hshape.text_eq hg hg',
    (hshape.invert hg hg').postorderListing_eq (DependencyGraph.wellFormed_invert hg)
      (DependencyGraph.wellFormed_invert hg')]
  exact ⟨rfl, rfl⟩

end Program

end Interchange

end Datalog
