import Datalog.Proofs.Evaluation.Firing
import Datalog.Proofs.Evaluation.Issues
import Datalog.Proofs.Evaluation.Tracing

/-!
# The warnings of a program without issues

**Rules.** In a program without issues each head has as many terms as its relation has columns, and
each head term is a column of the matches.  The projection keeps each of them once, so the rule
derives a relation exactly if no head term is repeated.

**Evaluations.** The warnings of an evaluation are the events of its firings, in turn.  Every rule
is fired, at least once.

**Results.** Loading a program without issues warns of nothing, and evaluating it warns of the rules
that repeat a head term, each time that one is fired, and of nothing else.
-/

namespace Datalog

section Warnings

namespace Session

section Evaluated

variable {s : Session} {rules : List Rule} {rule : Rule}

theorem mem_of_mem_evaluated
    {trace : ComponentTrace}
    (h : rule ∈ trace.evaluated rules) :
    rule ∈ rules := by
  obtain ⟨members, hmembers, hrule⟩ := List.mem_flatten.1 h
  rw [List.eq_of_mem_replicate hmembers] at hrule
  obtain ⟨_, _, hget⟩ := List.mem_filterMap.1 hrule
  exact List.mem_of_getElem? hget

/-- Only rules of the program are fired. -/
theorem mem_of_mem_evaluations
    {schedule : ScheduleTrace} {trace : RuleTrace}
    (h : (rule, trace) ∈ schedule.evaluations rules) :
    rule ∈ rules := by
  obtain ⟨_, _, hmem⟩ := List.mem_flatMap.1 h
  exact mem_of_mem_evaluated (List.of_mem_zip hmem).1

/-- There is a first pass over the rules of each component. -/
theorem exists_evaluation_evaluateComponent
    (hs : s.database.Sound)
    {component : DependencyGraph}
    (hpositions : component.Positions rules)
    (hrule : rule ∈ component.memberRules) :
    let run := s.evaluateComponent component
    ∃ trace, (rule, trace) ∈ (run.trace.evaluated rules).zip run.trace.traces := by
  intro run
  have hpasses : 1 ≤ run.trace.passes := (loop_evaluateComponent hs component).number_le
  have hmem : rule ∈ run.trace.evaluated rules := by
    rw [evaluated_evaluateComponent hpositions s]
    exact List.mem_flatten_of_mem
      (List.mem_replicate.2 ⟨Nat.one_le_iff_ne_zero.1 hpasses, rfl⟩) hrule
  have hlength := (runsThrough_evaluateComponent hpositions s).1
  rw [← List.map_fst_zip (Nat.le_of_eq hlength)] at hmem
  obtain ⟨⟨_, trace⟩, hzip, rfl⟩ := List.mem_map.1 hmem
  exact ⟨trace, hzip⟩

theorem exists_evaluation_evaluateInTurn
    (hs : s.database.Sound)
    {components : List DependencyGraph}
    (hpositions : ∀ component ∈ components, component.Positions rules)
    {component : DependencyGraph}
    (hcomponent : component ∈ components)
    (hrule : rule ∈ component.memberRules) :
    ∃ trace,
      (rule, trace) ∈
        (ScheduleTrace.byComponent (s.evaluateInTurn components).traces).evaluations rules := by
  induction components generalizing s with
  | nil => cases hcomponent
  | cons first rest ih =>
      simp only [ScheduleTrace.evaluations, ScheduleTrace.components] at ih ⊢
      simp only [evaluateInTurn, List.flatMap_cons, List.mem_append]
      rcases List.mem_cons.1 hcomponent with rfl | hlater
      · obtain ⟨trace, hmem⟩ :=
          exists_evaluation_evaluateComponent hs (hpositions _ List.mem_cons_self) hrule
        exact ⟨trace, Or.inl hmem⟩
      · obtain ⟨trace, hmem⟩ := ih (sound_evaluateComponent hs first)
          (fun other hother => hpositions other (List.mem_cons_of_mem _ hother)) hlater
        exact ⟨trace, Or.inr hmem⟩

/-- Every rule is fired. -/
theorem exists_evaluation_evaluateRules
    (hs : s.database.Sound)
    {graph : DependencyGraph}
    (hgraph : graph.WellFormed)
    (hpositions : graph.Positions rules)
    (hrule : rule ∈ graph.memberRules)
    (optimize : Bool) :
    ∃ trace, (rule, trace) ∈ (s.evaluateRules graph optimize).trace.evaluations rules := by
  cases optimize with
  | true =>
      obtain ⟨component, hcomponent, hmember⟩ :=
        (mem_memberRules_componentGraphs hgraph).1 hrule
      refine exists_evaluation_evaluateInTurn hs (fun other hother => ?_) hcomponent hmember
      obtain ⟨c, _, rfl⟩ := DependencyGraph.exists_component_of_mem hother
      exact hpositions.subgraph c.members
  | false =>
      obtain ⟨trace, hmem⟩ := exists_evaluation_evaluateComponent hs hpositions hrule
      exact ⟨trace, List.mem_flatMap.2 ⟨_, List.mem_singleton_self _, hmem⟩⟩

end Evaluated

end Session

namespace Program

section Clean

variable {program : Program} {db : Database} {rule : Rule}

/-- The head terms of a checked program are variables of the body. -/
theorem binds_of_mem_head
    (hchecked : program.Checked)
    (hle : Database.ofProgram program ≤ db)
    (hrule : rule ∈ program.rules)
    {term : String}
    (hterm : term ∈ rule.head.terms) :
    db.Binds rule.body term := by
  obtain ⟨hvariable, predicate, hpredicate, hmem⟩ := hchecked.bound rule hrule term hterm
  obtain ⟨_, _, r, hr, _, harity⟩ :=
    Database.exists_relation_of_le hle (hchecked.bodies rule hrule predicate hpredicate)
  exact ⟨predicate, hpredicate, r, hr,
    Matching.isVisible_of_mem hmem hvariable (Nat.le_of_eq harity.symm)⟩

theorem boundBody_ne_nil_of_checked
    (hshaped : program.Shaped)
    (hchecked : program.Checked)
    (hle : Database.ofProgram program ≤ db)
    (hrule : rule ∈ program.rules) :
    db.boundBody rule.body ≠ [] := by
  obtain ⟨predicate, hpredicate⟩ := List.exists_mem_of_ne_nil _ (hshaped.bodies rule hrule).1
  obtain ⟨_, _, r, hr, _⟩ :=
    Database.exists_relation_of_le hle (hchecked.bodies rule hrule predicate hpredicate)
  exact Database.boundBody_ne_nil_iff.2 ⟨predicate, hpredicate, r, hr⟩

/-- In every database above the loaded one, a rule of a checked program derives a relation if its
head repeats no term, and does not fit its head relation otherwise. -/
theorem derive_of_checked
    (hshaped : program.Shaped)
    (hchecked : program.Checked)
    (hsound : db.Sound)
    (hle : Database.ofProgram program ≤ db)
    (hrule : rule ∈ program.rules) :
    (rule.head.terms.Nodup → ∃ derived, db.derive rule = .ok derived) ∧
      (¬ rule.head.terms.Nodup → db.derive rule = .error .incompatibleHead) := by
  have hclean : ∀ name r, db.relation? name = some r → r.Clean := fun name r hr =>
    ⟨Database.nodup_schema_of_le hle hchecked hr, hsound.wellFormed name r hr⟩
  obtain ⟨_, _, head, hhead, _, harity⟩ :=
    Database.exists_relation_of_le hle (hchecked.heads rule hrule)
  obtain ⟨first, rest, hbody⟩ :=
    List.exists_cons_of_ne_nil (boundBody_ne_nil_of_checked hshaped hchecked hle hrule)
  have hprojected :
      Relation.projectedSchema (rest.foldl Relation.join first).schema rule.head.terms =
        rule.head.terms.eraseDups :=
    Relation.projectedSchema_eq_eraseDups fun term hterm => by
      rw [(Database.joined_boundBody hbody).2.1,
        Database.exists_column_iff_binds hclean (hshaped.body_terms hrule)]
      exact binds_of_mem_head hchecked hle hrule hterm
  constructor
  · intro hnodup
    obtain ⟨hne, hcolumns⟩ := hshaped.columns_of_le hle hhead
    obtain ⟨derived, hderive, _⟩ :=
      Database.exists_derived_of_length hhead (hclean _ head hhead).nodup hcolumns hne hbody
        (by rw [hprojected, Relation.eraseDups_of_nodup hnodup, harity])
    exact ⟨derived, hderive⟩
  · intro hrepeats
    refine Database.derive_of_length_ne hhead hbody ?_
    rw [hprojected, harity]
    exact fun hlength => hrepeats (Relation.length_eraseDups_eq_iff.1 hlength)

/-- Passes over rules of a checked program warn of the rules that repeat a head term. -/
theorem events_pass_of_checked
    (hshaped : program.Shaped)
    (hchecked : program.Checked)
    {s : Session}
    (hsound : s.database.Sound)
    (hle : Database.ofProgram program ≤ s.database)
    {rules : List Rule}
    (hrules : ∀ rule ∈ rules, rule ∈ program.rules) :
    (s.pass rules).events =
      (rules.filter fun rule => ¬ rule.head.terms.Nodup).map .incompatibleHead := by
  induction rules generalizing s with
  | nil => rfl
  | cons rule rest ih =>
      obtain ⟨hderives, hrefuses⟩ :=
        derive_of_checked hshaped hchecked hsound hle (hrules rule List.mem_cons_self)
      obtain ⟨hsound', hle'⟩ := Session.above_fire ⟨hsound, hle⟩ rule
      have hlater := ih hsound' hle' fun other hother =>
        hrules other (List.mem_cons_of_mem _ hother)
      rw [Session.pass, hlater]
      by_cases hnodup : rule.head.terms.Nodup
      · obtain ⟨derived, hderive⟩ := hderives hnodup
        have hevents : (s.fire rule).events = [] := by
          rcases Session.fire_cases s rule with ⟨_, herror, _⟩ | ⟨_, _, _, _, heq⟩
          · rw [hderive] at herror
            cases herror
          · rw [heq]
        rw [hevents, List.filter_cons_of_neg (by simpa using hnodup), List.nil_append]
      · rw [Session.fire, hrefuses hnodup, List.filter_cons_of_pos (by simpa using hnodup)]
        rfl

/-- The facts of a program without issues are all loaded. -/
theorem loadingEvents_of_issues_eq_nil
    (hissues : program.issues = []) :
    Database.loadingEvents program = [] := by
  have hreports := forall₂_filterMap (reports_factEvent? program) program.facts
  rw [← filter_issues_fact, hissues] at hreports
  exact List.forall₂_nil_right_iff.1 hreports

theorem warnings_answerEvents (db : Database) (queries : List Predicate) :
    Event.warnings (db.answerEvents queries) = [] := by
  refine Event.warnings_eq_nil_of_forall fun event hevent => ?_
  obtain ⟨query, _, hunknown⟩ := List.mem_filterMap.1 hevent
  split at hunknown
  · cases hunknown
    exact nofun
  · cases hunknown

/-- An evaluation warns of the skipped facts, and then of what its firings meet, in turn. -/
theorem warnings_evaluation (settings : EvaluationSettings) (program : Program) :
    let evaluation := Evaluation.ofProgram settings program
    Event.warnings evaluation.events =
      Event.warnings (Database.loadingEvents program) ++
        ((Session.ofDatabase (Database.ofProgram program)).pass
          ((evaluation.report.rules.evaluations program.rules).map Prod.fst)).events := by
  obtain ⟨_, hruns⟩ :=
    Session.runsThrough_evaluateRules (DependencyGraph.positions_ofRules program.rules)
      (Session.ofDatabase (Database.ofProgram program)) settings.optimize
  refine Eq.trans ?_ (congrArg _ hruns.warnings)
  change Event.warnings (Database.loadingEvents program ++ _ :: _ ++ _ :: _) = _
  rw [Event.warnings_append, Event.warnings_append, Event.warnings_cons_of_ne,
    Event.warnings_cons_of_ne, warnings_answerEvents, List.append_nil]
  · exact nofun
  · exact nofun

/-- Under all settings, loading a program of the grammar's shape without issues skips no fact.  Each
evaluation of a rule derives a relation if the head repeats no term, and otherwise finds that the
rule does not fit its head relation.  The warnings are those of the evaluations of the latter kind,
in turn, and as every rule is evaluated there are none exactly if no head repeats a term. -/
theorem clean_evaluation_warnings
    (hshaped : program.Shaped)
    (hissues : program.issues = [])
    (settings : EvaluationSettings) :
    let loaded := Session.ofDatabase (Database.ofProgram program)
    let evaluation := Evaluation.ofProgram settings program
    let evaluations := evaluation.report.rules.evaluations program.rules
    Database.loadingEvents program = [] ∧
      (∀ earlier rule trace later, evaluations = earlier ++ (rule, trace) :: later →
        ∃ before, loaded.Fires earlier before ∧ trace = (before.fire rule).trace ∧
          (rule.head.terms.Nodup → ∃ derived, before.database.derive rule = .ok derived) ∧
          (¬ rule.head.terms.Nodup →
            before.database.derive rule = .error .incompatibleHead)) ∧
      Event.warnings evaluation.events =
        ((evaluations.map Prod.fst).filter fun rule => ¬ rule.head.terms.Nodup).map
          .incompatibleHead ∧
      (Event.warnings evaluation.events = [] ↔ ∀ rule ∈ program.rules, rule.head.terms.Nodup) := by
  intro loaded evaluation evaluations
  have hchecked := checked_of_issues_eq_nil hissues
  have hsound : loaded.database.Sound := Database.sound_ofProgram program
  have hpositions := DependencyGraph.positions_ofRules program.rules
  obtain ⟨_, hruns⟩ := Session.runsThrough_evaluateRules hpositions loaded settings.optimize
  have hloading := loadingEvents_of_issues_eq_nil hissues
  have hrules : ∀ rule ∈ evaluations.map Prod.fst, rule ∈ program.rules := by
    intro rule hrule
    obtain ⟨⟨_, trace⟩, hmem, rfl⟩ := List.mem_map.1 hrule
    exact Session.mem_of_mem_evaluations hmem
  have hwarnings : Event.warnings evaluation.events =
      ((evaluations.map Prod.fst).filter fun rule => ¬ rule.head.terms.Nodup).map
        .incompatibleHead := by
    rw [warnings_evaluation, hloading,
      events_pass_of_checked hshaped hchecked hsound (le_refl _) hrules]
    rfl
  refine ⟨hloading, fun earlier rule trace later heq => ?_, hwarnings, ?_⟩
  · have hsplit : loaded.Fires evaluations _ := hruns.fires
    have hmem : rule ∈ evaluations.map Prod.fst :=
      List.mem_map_of_mem (heq ▸ List.mem_append_right _ List.mem_cons_self)
    rw [heq] at hsplit
    obtain ⟨before, hbefore, htrace, _⟩ := hsplit.exists_before
    obtain ⟨hsound', hle⟩ := Session.above_fires ⟨hsound, le_refl _⟩ hbefore
    exact ⟨before, hbefore, htrace,
      derive_of_checked hshaped hchecked hsound' hle (hrules rule hmem)⟩
  · rw [hwarnings, List.map_eq_nil_iff, List.filter_eq_nil_iff]
    constructor
    · intro hnone rule hrule
      obtain ⟨trace, hmem⟩ :=
        Session.exists_evaluation_evaluateRules hsound (DependencyGraph.wellFormed_ofRules _)
          hpositions (DependencyGraph.mem_memberRules_ofRules.2 hrule) settings.optimize
      simpa using hnone rule (List.mem_map_of_mem hmem)
    · intro hnodup rule hrule
      simpa using hnodup rule (hrules rule hrule)

theorem ancestry_warns_of_nothing :
    ancestry.Shaped ∧ ancestry.issues = [] ∧ Database.loadingEvents ancestry = [] ∧
      Event.warnings (Evaluation.ofProgram { optimize := true } ancestry).events = [] := by
  have hshaped : ancestry.Shaped := by decide +kernel
  have hissues : ancestry.issues = [] := by decide
  obtain ⟨hloading, _, _, hnone⟩ := clean_evaluation_warnings hshaped hissues { optimize := true }
  exact ⟨hshaped, hissues, hloading, hnone.2 (by decide)⟩

/-- One rule, which is to pair every value with itself. -/
def doubled : Program where
  schemes := [⟨"P", ["a"]⟩, ⟨"H", ["a", "b"]⟩]
  facts := []
  rules := [⟨⟨"H", ["x", "x"]⟩, [⟨"P", ["x"]⟩]⟩]
  queries := [⟨"P", ["x"]⟩]

/-- No check tells of the repeated head variable, but the evaluation warns of it. -/
theorem doubled_warns :
    let rule : Rule := ⟨⟨"H", ["x", "x"]⟩, [⟨"P", ["x"]⟩]⟩
    doubled.Shaped ∧ doubled.issues = [] ∧ rule ∈ doubled.rules ∧
      (Database.ofProgram doubled).derive rule = .error .incompatibleHead ∧
      Event.warnings (Evaluation.ofProgram { optimize := true } doubled).events =
        [.incompatibleHead rule] ∧
      Event.warnings (Evaluation.ofProgram { optimize := false } doubled).events =
        [.incompatibleHead rule] := by
  have hcomponents : (DependencyGraph.ofRules doubled.rules).components =
      [⟨0, ⟨[0], by decide⟩⟩] := by cbv
  refine ⟨by decide +kernel, by decide, by decide, by decide +kernel, ?_, by decide +kernel⟩
  unfold Evaluation.ofProgram Session.evaluateRules DependencyGraph.componentGraphs
    DependencyGraph.componentEvents
  simp only [hcomponents, if_true]
  decide +kernel

end Clean

end Program

end Warnings

end Datalog
