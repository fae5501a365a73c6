import Datalog.Proofs.Evaluation.Counting
import Datalog.Proofs.Graph.RuleGraph
import Datalog.Schedule

/-!
# Termination of the evaluation

**Firing.** An evaluation is a row of firings: what each firing keeps, the whole evaluation keeps.

**Loop.** `Loop`, `Completes`, `CompletesInTurn` and `CompletesRules` are the evaluation with no
bound on the number of passes: a pass is followed by another one as long as the rules are recursive
and it traced a row.

**Measure.** A traced row is a row that the database lacked, and no row has a value that the
database lacked.  So each pass but the last adds a row, and there are only so many to add.

**Results.** From every database the loop has exactly one outcome, which is the one computed with a
bound.  The number of passes is at most the number of components plus the number of added rows.
-/

namespace Datalog

section Termination

namespace Session

section Keeping

variable {s : Session} {p : Session → Prop}

theorem pass_keeps
    {rules : List Rule}
    (hfire : ∀ rule ∈ rules, ∀ s, p s → p (s.fire rule).session)
    (hs : p s) :
    p (s.pass rules).session := by
  induction rules generalizing s with
  | nil => exact hs
  | cons rule rest ih =>
      have hfirst := hfire rule List.mem_cons_self s hs
      exact ih (fun other hother => hfire other (List.mem_cons_of_mem _ hother)) hfirst

theorem repeatPasses_keeps
    {members : List Nat} {rules : List Rule} {recursive : Bool}
    (hfire : ∀ rule ∈ rules, ∀ s, p s → p (s.fire rule).session)
    (hs : p s)
    (bound number : Nat) :
    p (s.repeatPasses members rules recursive bound number).1.session := by
  induction bound generalizing s number with
  | zero => exact hs
  | succ bound ih =>
      have hpass := pass_keeps hfire hs
      rw [repeatPasses]
      simp only
      split
      · exact ih hpass (number + 1)
      · exact hpass

theorem evaluateComponent_eq (s : Session) (component : DependencyGraph) :
    s.evaluateComponent component =
      let outcome := s.saturate component.ids component.memberRules component.isRecursive
      ⟨outcome.1.session, ⟨component.ids, outcome.2, outcome.1.traces⟩, outcome.1.events⟩ :=
  rfl

/-- What each firing of a rule of the component keeps, its evaluation keeps. -/
theorem evaluateComponent_keeps
    {component : DependencyGraph}
    (hfire : ∀ rule ∈ component.memberRules, ∀ s, p s → p (s.fire rule).session)
    (hs : p s) :
    p (s.evaluateComponent component).session := by
  rw [evaluateComponent_eq]
  exact repeatPasses_keeps hfire hs (s.database.capacity + 1) 1

theorem evaluateInTurn_keeps
    {components : List DependencyGraph}
    (hfire : ∀ c ∈ components, ∀ rule ∈ c.memberRules, ∀ s, p s → p (s.fire rule).session)
    (hs : p s) :
    p (s.evaluateInTurn components).session := by
  induction components generalizing s with
  | nil => exact hs
  | cons component rest ih =>
      have hfirst := evaluateComponent_keeps (hfire component List.mem_cons_self) hs
      exact ih (fun c hc => hfire c (List.mem_cons_of_mem _ hc)) hfirst

/-- What each firing of a rule keeps, the evaluation of all rules keeps. -/
theorem evaluateRules_keeps
    (hfire : ∀ rule s, p s → p (s.fire rule).session)
    (hs : p s)
    (graph : DependencyGraph) (optimize : Bool) :
    p (s.evaluateRules graph optimize).session := by
  cases optimize with
  | true => exact evaluateInTurn_keeps (fun _ _ rule _ => hfire rule) hs
  | false => exact evaluateComponent_keeps (fun rule _ => hfire rule) hs

end Keeping

section Pass

variable {s : Session} {d : Database}

@[simp] theorem database_pass (s : Session) (rules : List Rule) :
    (s.pass rules).session.database = rules.foldl Database.consequence s.database := by
  induction rules generalizing s with
  | nil => rfl
  | cons rule rest ih =>
      rw [pass, List.foldl_cons, ← database_fire]
      exact ih _

theorem sound_fire
    (h : s.database.Sound)
    (rule : Rule) :
    (s.fire rule).session.database.Sound := by
  rw [database_fire]
  exact h.consequence rule

theorem over_fire
    {p : String → Prop}
    (h : s.database.Over p)
    (rule : Rule) :
    (s.fire rule).session.database.Over p := by
  rw [database_fire]
  exact h.consequence rule

/-- A sound session over a database stays sound and over this database. -/
theorem above_fire
    (h : s.database.Sound ∧ d ≤ s.database)
    (rule : Rule) :
    (s.fire rule).session.database.Sound ∧ d ≤ (s.fire rule).session.database := by
  refine ⟨sound_fire h.1 rule, ?_⟩
  rw [database_fire]
  exact le_trans h.2 (Database.le_consequence h.1.keyed rule)

theorem sound_pass
    (h : s.database.Sound)
    (rules : List Rule) :
    (s.pass rules).session.database.Sound :=
  pass_keeps (p := fun t => t.database.Sound) (fun rule _ _ ht => sound_fire ht rule) h

theorem over_pass
    {p : String → Prop}
    (h : s.database.Over p)
    (rules : List Rule) :
    (s.pass rules).session.database.Over p :=
  pass_keeps (p := fun t => t.database.Over p) (fun rule _ _ ht => over_fire ht rule) h

theorem le_pass
    (h : s.database.Sound)
    (rules : List Rule) :
    s.database ≤ (s.pass rules).session.database :=
  (pass_keeps (p := fun t => t.database.Sound ∧ s.database ≤ t.database)
    (fun rule _ _ ht => above_fire ht rule) ⟨h, le_refl _⟩).2

/-- A pass that traced a row has added one. -/
theorem lt_pass
    {rules : List Rule}
    (h : s.database.Sound)
    (hadded : (s.pass rules).added = true) :
    s.database < (s.pass rules).session.database := by
  induction rules generalizing s with
  | nil => cases hadded
  | cons rule rest ih =>
      obtain ⟨hsound, hfire⟩ := above_fire ⟨h, le_refl s.database⟩ rule
      simp only [pass, Passes.added, List.any_cons, Bool.or_eq_true] at hadded
      rcases hadded with htraced | hlater
      · have hne : (s.fire rule).trace.derived ≠ [] := by
          simpa using htraced
        have hchange := consequence_ne_of_derived_ne_nil hne
        rw [← database_fire] at hchange
        exact lt_of_lt_of_le (lt_of_le_of_ne hfire hchange.symm) (le_pass hsound rest)
      · exact lt_of_le_of_lt hfire (ih hsound hlater)

end Pass

section Loop

variable {members : List Nat} {rules : List Rule} {recursive : Bool}

/-- Passes over the rules, numbered from a number, as long as they are recursive and the last pass
traced a row. -/
inductive Loop (members : List Nat) (rules : List Rule) (recursive : Bool) :
    Session → Nat → Passes × Nat → Prop
  | last {s : Session} {number : Nat} :
      (recursive && (s.pass rules).added) = false →
      Loop members rules recursive s number
        (⟨(s.pass rules).session, (s.pass rules).traces,
          (s.pass rules).events ++ [.finishedPass members number (s.pass rules).added]⟩, number)
  | again {s : Session} {number count : Nat} {rest : Passes} :
      (recursive && (s.pass rules).added) = true →
      Loop members rules recursive (s.pass rules).session (number + 1) (rest, count) →
      Loop members rules recursive s number
        (⟨rest.session, (s.pass rules).traces ++ rest.traces,
          (s.pass rules).events ++
            .finishedPass members number (s.pass rules).added :: rest.events⟩, count)

theorem Loop.unique
    {s : Session} {number : Nat} {outcome outcome' : Passes × Nat}
    (h : Loop members rules recursive s number outcome)
    (h' : Loop members rules recursive s number outcome') :
    outcome = outcome' := by
  induction h generalizing outcome' with
  | last hstop =>
      cases h' with
      | last _ => rfl
      | again hgo _ =>
          rw [hstop] at hgo
          cases hgo
  | again hgo _ ih =>
      cases h' with
      | last hstop =>
          rw [hgo] at hstop
          cases hstop
      | again _ hrest =>
          cases ih hrest
          rfl

theorem Loop.number_le
    {s : Session} {number : Nat} {outcome : Passes × Nat}
    (h : Loop members rules recursive s number outcome) :
    number ≤ outcome.2 := by
  induction h with
  | last _ => exact Nat.le_refl _
  | again _ _ ih => exact Nat.le_of_succ_le ih

/-- Each pass but the last adds a row. -/
theorem Loop.count_le
    {s : Session} {number : Nat} {outcome : Passes × Nat}
    (h : Loop members rules recursive s number outcome)
    (hs : s.database.Sound) :
    outcome.2 + s.database.factCount ≤ number + outcome.1.session.database.factCount := by
  induction h with
  | last _ => exact Nat.add_le_add_left (Database.factCount_mono (le_pass hs rules)) _
  | again hgo _ ih =>
      rw [Bool.and_eq_true] at hgo
      have hrest := ih (sound_pass hs rules)
      have hadded := Database.factCount_strictMono (lt_pass hs hgo.2)
      simp only at hrest ⊢
      omega

/-- A bound that the capacity of an earlier database leaves room for is never reached. -/
theorem loop_repeatPasses
    {d : Database} {s : Session} {bound : Nat}
    (hle : d ≤ s.database)
    (hs : s.database.Sound)
    (hover : s.database.Over (· ∈ d.values))
    (hbound : d.capacity < bound + s.database.factCount)
    (number : Nat) :
    Loop members rules recursive s number
      (s.repeatPasses members rules recursive bound number) := by
  induction bound generalizing s number with
  | zero =>
      have hcount := Database.factCount_le_capacity hle hs hover
      omega
  | succ bound ih =>
      rw [repeatPasses]
      simp only
      split
      · rename_i hgo
        have hadded := Database.factCount_strictMono (lt_pass hs (Bool.and_eq_true _ _ ▸ hgo).2)
        exact Loop.again hgo
          (ih (le_trans hle (le_pass hs rules)) (sound_pass hs rules) (over_pass hover rules)
            (by omega) (number + 1))
      · rename_i hstop
        exact Loop.last (Bool.eq_false_iff.2 hstop)

theorem loop_saturate
    {s : Session}
    (hs : s.database.Sound) :
    Loop members rules recursive s 1 (s.saturate members rules recursive) := by
  unfold saturate
  refine loop_repeatPasses (le_refl _) hs s.database.over_values ?_ 1
  omega

end Loop

section Schedule

/-- The evaluation of a component with no bound on its passes. -/
def Completes (s : Session) (component : DependencyGraph) (run : ComponentRun) : Prop :=
  ∃ passes count,
    Loop component.ids (component.nodes.values.map fun node => node.rule.rule)
      component.isRecursive s 1 (passes, count) ∧
    run = ⟨passes.session, ⟨component.ids, count, passes.traces⟩, passes.events⟩

/-- The evaluation of components in turn, each with no bound on its passes. -/
inductive CompletesInTurn : Session → List DependencyGraph → ComponentRuns → Prop
  | nil {s : Session} : CompletesInTurn s [] ⟨s, [], []⟩
  | cons {s : Session} {component : DependencyGraph} {rest : List DependencyGraph}
      {run : ComponentRun} {runs : ComponentRuns} :
      s.Completes component run →
      CompletesInTurn run.session rest runs →
      CompletesInTurn s (component :: rest)
        ⟨runs.session, run.trace :: runs.traces, run.events ++ runs.events⟩

/-- The evaluation of all rules with no bound on the passes. -/
def CompletesRules
    (s : Session) (graph : DependencyGraph) (optimize : Bool) (run : ScheduleRun) : Prop :=
  if optimize then
    ∃ runs, CompletesInTurn s graph.componentGraphs runs ∧
      run = ⟨runs.session, .byComponent runs.traces,
        graph.componentEvents ++ .scheduling graph.componentGraphs.length :: runs.events⟩
  else
    ∃ whole, s.Completes graph whole ∧ run = ⟨whole.session, .together whole.trace, whole.events⟩

variable {s : Session}

theorem loop_evaluateComponent
    (hs : s.database.Sound)
    (component : DependencyGraph) :
    Loop component.ids component.memberRules component.isRecursive s 1
      (s.saturate component.ids component.memberRules component.isRecursive) :=
  loop_saturate hs

/-- The unbounded evaluation of a component ends, and in one way only. -/
theorem completes_iff
    (hs : s.database.Sound)
    {component : DependencyGraph} {run : ComponentRun} :
    s.Completes component run ↔ run = s.evaluateComponent component := by
  have hloop := loop_evaluateComponent hs component
  constructor
  · rintro ⟨passes, count, h, rfl⟩
    rw [evaluateComponent_eq, ← h.unique hloop]
  · rintro rfl
    exact ⟨_, _, hloop, rfl⟩

theorem sound_evaluateComponent
    (hs : s.database.Sound)
    (component : DependencyGraph) :
    (s.evaluateComponent component).session.database.Sound :=
  evaluateComponent_keeps (p := fun t => t.database.Sound)
    (fun rule _ _ ht => sound_fire ht rule) hs

theorem le_evaluateComponent
    (hs : s.database.Sound)
    (component : DependencyGraph) :
    s.database ≤ (s.evaluateComponent component).session.database :=
  (evaluateComponent_keeps (p := fun t => t.database.Sound ∧ s.database ≤ t.database)
    (fun rule _ _ ht => above_fire ht rule) ⟨hs, le_refl _⟩).2

theorem passes_evaluateComponent
    (hs : s.database.Sound)
    (component : DependencyGraph) :
    (s.evaluateComponent component).trace.passes + s.database.factCount ≤
      1 + (s.evaluateComponent component).session.database.factCount :=
  (loop_evaluateComponent hs component).count_le hs

theorem completesInTurn_iff
    (hs : s.database.Sound)
    {components : List DependencyGraph} {runs : ComponentRuns} :
    s.CompletesInTurn components runs ↔ runs = s.evaluateInTurn components := by
  induction components generalizing s runs with
  | nil =>
      constructor
      · rintro ⟨⟩
        rfl
      · rintro rfl
        exact CompletesInTurn.nil
  | cons component rest ih =>
      have hrest {runs : ComponentRuns} :
          (s.evaluateComponent component).session.CompletesInTurn rest runs ↔
            runs = (s.evaluateComponent component).session.evaluateInTurn rest :=
        ih (sound_evaluateComponent hs component)
      constructor
      · intro h
        cases h with
        | cons hcomponent h =>
            rw [completes_iff hs] at hcomponent
            subst hcomponent
            rw [hrest] at h
            subst h
            rfl
      · rintro rfl
        exact CompletesInTurn.cons ((completes_iff hs).2 rfl) (hrest.2 rfl)

theorem le_evaluateInTurn
    (hs : s.database.Sound)
    (components : List DependencyGraph) :
    s.database ≤ (s.evaluateInTurn components).session.database :=
  (evaluateInTurn_keeps (p := fun t => t.database.Sound ∧ s.database ≤ t.database)
    (fun _ _ rule _ _ ht => above_fire ht rule) ⟨hs, le_refl _⟩).2

theorem passes_evaluateInTurn
    (hs : s.database.Sound)
    (components : List DependencyGraph) :
    (ScheduleTrace.byComponent (s.evaluateInTurn components).traces).totalPasses +
        s.database.factCount ≤
      components.length + (s.evaluateInTurn components).session.database.factCount := by
  induction components generalizing s with
  | nil => exact Nat.le_refl _
  | cons component rest ih =>
      have hfirst := passes_evaluateComponent hs component
      have hrest := ih (sound_evaluateComponent hs component)
      simp only [evaluateInTurn, ScheduleTrace.totalPasses, List.foldr_cons,
        List.length_cons] at hrest ⊢
      omega

theorem completesRules_iff
    (hs : s.database.Sound)
    {graph : DependencyGraph} {optimize : Bool} {run : ScheduleRun} :
    s.CompletesRules graph optimize run ↔ run = s.evaluateRules graph optimize := by
  cases optimize with
  | true =>
      simp only [CompletesRules, evaluateRules, if_true, completesInTurn_iff hs, exists_eq_left]
  | false =>
      simp only [CompletesRules, evaluateRules, Bool.false_eq_true, if_false, completes_iff hs,
        exists_eq_left]

theorem sound_evaluateRules
    (hs : s.database.Sound)
    (graph : DependencyGraph) (optimize : Bool) :
    (s.evaluateRules graph optimize).session.database.Sound :=
  evaluateRules_keeps (p := fun t => t.database.Sound) (fun rule _ ht => sound_fire ht rule) hs
    graph optimize

theorem le_evaluateRules
    (hs : s.database.Sound)
    (graph : DependencyGraph) (optimize : Bool) :
    s.database ≤ (s.evaluateRules graph optimize).session.database :=
  (evaluateRules_keeps (p := fun t => t.database.Sound ∧ s.database ≤ t.database)
    (fun rule _ ht => above_fire ht rule) ⟨hs, le_refl _⟩ graph optimize).2

theorem totalPasses_evaluateRules
    (hs : s.database.Sound)
    (graph : DependencyGraph) (optimize : Bool) :
    (s.evaluateRules graph optimize).trace.totalPasses + s.database.factCount ≤
      (if optimize then graph.componentGraphs.length else 1) +
        (s.evaluateRules graph optimize).session.database.factCount := by
  cases optimize with
  | true => exact passes_evaluateInTurn hs graph.componentGraphs
  | false => exact passes_evaluateComponent hs graph

/-- The number of rows that a later database has on top of an earlier one. -/
def addedRows (before after : Database) : Nat :=
  after.factCount - before.factCount

/-- The evaluation ends on every database, with every memory of reported rows and for every graph:
the loops without a bound have one outcome each, no row is lost, and the passes are bounded by the
number of components and of added rows. -/
theorem evaluation_ends
    {db : Database}
    (hdb : db.Reachable)
    (reported : OrderedMap String (OrderedSet String))
    (graph : DependencyGraph) :
    let s : Session := ⟨db, reported⟩
    let component := s.evaluateComponent graph
    (∀ run, s.Completes graph run ↔ run = component) ∧
      db ≤ component.session.database ∧
      component.trace.passes ≤ 1 + addedRows db component.session.database ∧
      ∀ optimize,
        let rules := s.evaluateRules graph optimize
        (∀ run, s.CompletesRules graph optimize run ↔ run = rules) ∧
          db ≤ rules.session.database ∧
          rules.trace.totalPasses ≤
            (if optimize then graph.componentGraphs.length else 1) +
              addedRows db rules.session.database := by
  intro s component
  have hs : s.database.Sound := hdb.sound
  have hadded {after : Database} {count bound : Nat}
      (h : count + db.factCount ≤ bound + after.factCount) (hle : db ≤ after) :
      count ≤ bound + addedRows db after := by
    have hmono := Database.factCount_mono hle
    unfold addedRows
    omega
  refine ⟨fun run => completes_iff hs, le_evaluateComponent hs graph,
    hadded (passes_evaluateComponent hs graph) (le_evaluateComponent hs graph), ?_⟩
  intro optimize rules
  exact ⟨fun run => completesRules_iff hs, le_evaluateRules hs graph optimize,
    hadded (totalPasses_evaluateRules hs graph optimize) (le_evaluateRules hs graph optimize)⟩

end Schedule

end Session

namespace Program

/-- Parents, and the ancestors that follow from them. -/
def ancestry : Program where
  schemes := [⟨"Parent", ["a", "b"]⟩, ⟨"Ancestor", ["a", "b"]⟩]
  facts := [⟨"Parent", ["'ann'", "'bob'"]⟩, ⟨"Parent", ["'bob'", "'cid'"]⟩]
  rules :=
    [⟨⟨"Ancestor", ["x", "y"]⟩, [⟨"Parent", ["x", "y"]⟩]⟩,
      ⟨⟨"Ancestor", ["x", "z"]⟩, [⟨"Parent", ["x", "y"]⟩, ⟨"Ancestor", ["y", "z"]⟩]⟩]
  queries := [⟨"Ancestor", ["'ann'", "x"]⟩]

/-- A memory that hides a row does not keep the evaluation from ending. -/
theorem ancestry_ends :
    let db := Database.ofProgram ancestry
    let s : Session :=
      ⟨db, OrderedMap.empty.insert "Ancestor" (OrderedSet.ofList ["a='ann', b='cid'"])⟩
    let graph := DependencyGraph.ofRules ancestry.rules
    db.Reachable ∧
      (s.evaluateRules graph true).trace.totalPasses ≤
        graph.componentGraphs.length +
          Session.addedRows db (s.evaluateRules graph true).session.database := by
  have hdb : (Database.ofProgram ancestry).Reachable := Database.Reachable.ofProgram ancestry
  exact ⟨hdb, ((Session.evaluation_ends hdb _ _).2.2.2 true).2.2⟩

end Program

end Termination

end Datalog
