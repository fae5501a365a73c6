import Datalog.Proofs.Evaluation.LeastModel

/-!
# What an evaluation traces

**Attribution.** A component trace lists its traces pass by pass, and in each pass one for each of
its members, which are positions in the list of rules.  So each trace belongs to one rule.

**Firings.** `Fires` says that firing rules in turn leads from one session to another and leaves the
given traces.  A whole evaluation is one row of firings.

**Results.** If the values are string literals, a firing traces exactly the rows that it adds, each
once.  So over the whole evaluation the texts traced for a relation are those of its new rows, and
none is traced twice.
-/

namespace Datalog

section Tracing

section Attribution

/-- The rules that the traces of a component belong to. -/
def ComponentTrace.evaluated (rules : List Rule) (trace : ComponentTrace) : List Rule :=
  (List.replicate trace.passes (trace.members.filterMap fun id => rules[id]?)).flatten

/-- The traces of the components in turn; all rules together are one component. -/
def ScheduleTrace.components : ScheduleTrace → List ComponentTrace
  | byComponent components => components
  | together component => [component]

/-- Every single evaluation of a rule, over all components and passes, with its trace. -/
def ScheduleTrace.evaluations
    (rules : List Rule) (trace : ScheduleTrace) : List (Rule × RuleTrace) :=
  trace.components.flatMap fun component => (component.evaluated rules).zip component.traces

/-- The texts traced by the evaluations of rules for a relation. -/
def tracedFor (name : String) (evaluations : List (Rule × RuleTrace)) : List String :=
  (evaluations.filter fun evaluation => evaluation.1.head.name == name).flatMap
    fun evaluation => evaluation.2.derived

theorem tracedFor_cons
    (name : String) (rule : Rule) (trace : RuleTrace) (rest : List (Rule × RuleTrace)) :
    tracedFor name ((rule, trace) :: rest) =
      (if rule.head.name = name then trace.derived else []) ++ tracedFor name rest := by
  unfold tracedFor
  by_cases hname : rule.head.name = name <;> simp [hname]

end Attribution

namespace Event

/-- The events that are warnings. -/
def warnings (events : List Event) : List Event :=
  events.filter fun event => event.severity == .warn

@[simp] theorem warnings_append (events others : List Event) :
    warnings (events ++ others) = warnings events ++ warnings others :=
  List.filter_append events others

theorem warnings_cons_of_ne
    {event : Event} {events : List Event}
    (h : event.severity ≠ .warn) :
    warnings (event :: events) = warnings events :=
  List.filter_cons_of_neg (by simpa using h)

theorem warnings_eq_nil_of_forall
    {events : List Event}
    (h : ∀ event ∈ events, event.severity ≠ .warn) :
    warnings events = [] :=
  List.filter_eq_nil_iff.2 fun event hevent => by simpa using h event hevent

end Event

namespace Database

section Gaining

variable {d e f : Database} {name text : String}

/-- The text of a row that the relation of a name has in a later database, but not in an earlier
one. -/
def GainsText (before after : Database) (name text : String) : Prop :=
  ∃ r, after.relation? name = some r ∧
    ∃ row ∈ r.rows, ¬ before.HasRow name row ∧ Row.render r.schema row = text

theorem not_gainsText_of_relation?_eq
    (h : d.relation? name = e.relation? name) :
    ¬ d.GainsText e name text := by
  rintro ⟨r, hr, row, hrow, hnew, _⟩
  exact hnew ⟨r, h.trans hr, hrow⟩

/-- What is gained over two stretches is gained over the first or over the second. -/
theorem gainsText_iff_or
    (hde : d ≤ e)
    (hef : e ≤ f) :
    d.GainsText f name text ↔ d.GainsText e name text ∨ e.GainsText f name text := by
  constructor
  · rintro ⟨t, ht, row, hrow, hnew, htext⟩
    by_cases hmiddle : e.HasRow name row
    · obtain ⟨s, hs, hrow'⟩ := hmiddle
      obtain ⟨_, ht', hle⟩ := exists_le_of_le hef hs
      rw [ht] at ht'
      cases ht'
      exact Or.inl ⟨s, hs, row, hrow', hnew, by rw [hle.2.1, htext]⟩
    · exact Or.inr ⟨t, ht, row, hrow, hmiddle, htext⟩
  · rintro (⟨s, hs, row, hrow, hnew, htext⟩ | ⟨t, ht, row, hrow, hnew, htext⟩)
    · obtain ⟨t, ht, hle⟩ := exists_le_of_le hef hs
      exact ⟨t, ht, row, hle.2.2 row hrow, hnew, by rw [← hle.2.1, htext]⟩
    · exact ⟨t, ht, row, hrow, fun hold => hnew (hasRow_mono hde hold), htext⟩

/-- No text is gained twice. -/
theorem not_gainsText_of_gainsText
    (hsound : f.Sound)
    (hliteral : f.Over StringLiteral)
    (hef : e ≤ f)
    (hfirst : d.GainsText e name text) :
    ¬ e.GainsText f name text := by
  rintro ⟨t, ht, row', hrow', hnew, htext'⟩
  obtain ⟨s, hs, row, hrow, _, htext⟩ := hfirst
  obtain ⟨_, ht', hle⟩ := exists_le_of_le hef hs
  rw [ht] at ht'
  cases ht'
  have hsame : row = row' :=
    legible_of_literal hsound hliteral name t ht row (hle.2.2 row hrow) row' hrow'
      (by rw [htext', ← hle.2.1, htext])
  rw [← hsame] at hnew
  exact hnew ⟨s, hs, hrow⟩

theorem nodup_renderedRows
    (hsound : f.Sound)
    (hliteral : f.Over StringLiteral)
    {r : Relation}
    (hr : f.relation? name = some r) :
    r.renderedRows.Nodup := by
  refine List.Nodup.map_on ?_ r.rows.nodup_toList
  exact legible_of_literal hsound hliteral name r hr

end Gaining

end Database

namespace Session

section Firing

variable {s : Session} {rule : Rule}

/-- A firing traces the texts of the rows that it adds, each once. -/
theorem Faithful.derived_fire
    (h : s.Faithful)
    (rule : Rule) :
    (s.fire rule).trace.derived.Nodup ∧
      ∀ text, text ∈ (s.fire rule).trace.derived ↔
        s.database.GainsText (s.fire rule).session.database rule.head.name text := by
  rcases fire_cases s rule with ⟨_, _, heq⟩ | ⟨head, derived, hhead, hderive, heq⟩
  · rw [heq]
    refine ⟨List.nodup_nil, fun text => iff_of_false List.not_mem_nil ?_⟩
    exact Database.not_gainsText_of_relation?_eq rfl
  · have hafter := h.fire rule
    have hstored :
        (s.fire rule).session.database.relation? rule.head.name = some (head.union derived) := by
      rw [database_fire]
      exact Database.relation?_consequence_of_derive h.sound.keyed hhead hderive
    have hle := Relation.le_union_left (Database.schema_eq_of_derive hhead hderive)
    have htraced : (s.fire rule).trace.derived = (s.merge head derived).2 := by rw [heq]
    rw [htraced, h.snd_merge hhead]
    refine ⟨(Database.nodup_renderedRows hafter.sound hafter.literal hstored).filter _, ?_⟩
    intro text
    rw [List.mem_filter, Relation.mem_renderedRows, decide_eq_true_iff]
    constructor
    · rintro ⟨⟨row, hrow, htext⟩, hnew⟩
      refine ⟨_, hstored, row, hrow, fun hold => hnew ?_, htext⟩
      rw [Database.hasRow_iff hhead] at hold
      exact Relation.mem_renderedRows.2 ⟨row, hold, by rw [hle.2.1, htext]⟩
    · rintro ⟨r, hr, row, hrow, hnew, htext⟩
      rw [hstored] at hr
      cases hr
      refine ⟨⟨row, hrow, htext⟩, fun hold => hnew ?_⟩
      obtain ⟨row', hrow', htext'⟩ := Relation.mem_renderedRows.1 hold
      have hsame : row = row' :=
        Database.legible_of_literal hafter.sound hafter.literal _ _ hstored row hrow
          row' (hle.2.2 row' hrow') (by rw [htext, ← hle.2.1, htext'])
      rw [Database.hasRow_iff hhead, hsame]
      exact hrow'

/-- A firing traces a row exactly if it changes the database. -/
theorem Faithful.derived_ne_nil_iff
    (h : s.Faithful) :
    (s.fire rule).trace.derived ≠ [] ↔ (s.fire rule).session.database ≠ s.database := by
  rw [database_fire]
  constructor
  · exact consequence_ne_of_derived_ne_nil
  · intro hchange hnil
    have hclosed := h.closedUnder_of_derived_eq_nil hnil
    exact hchange ((Database.closedUnder_iff h.sound.keyed).1 hclosed)

end Firing

section Row

variable {s t u : Session} {xs ys : List (Rule × RuleTrace)}

/-- Firing the rules in turn leads from one session to another and leaves these traces. -/
inductive Fires : Session → List (Rule × RuleTrace) → Session → Prop
  | nil {s : Session} : Fires s [] s
  | cons {s t : Session} {rule : Rule} {rest : List (Rule × RuleTrace)} :
      Fires (s.fire rule).session rest t →
      Fires s ((rule, (s.fire rule).trace) :: rest) t

theorem Fires.append
    (h : s.Fires xs t)
    (h' : t.Fires ys u) :
    s.Fires (xs ++ ys) u := by
  induction h with
  | nil => exact h'
  | cons _ ih => exact Fires.cons (ih h')

/-- The session before a firing within a row of firings. -/
theorem Fires.exists_before
    {rule : Rule} {trace : RuleTrace}
    (h : s.Fires (xs ++ (rule, trace) :: ys) u) :
    ∃ before, s.Fires xs before ∧ trace = (before.fire rule).trace ∧
      (before.fire rule).session.Fires ys u := by
  induction xs generalizing s with
  | nil =>
      cases h with
      | cons hrest => exact ⟨s, Fires.nil, rfl, hrest⟩
  | cons first rest ih =>
      cases h with
      | cons hrest =>
          obtain ⟨before, hbefore, htrace, hafter⟩ := ih hrest
          exact ⟨before, Fires.cons hbefore, htrace, hafter⟩

theorem Faithful.fires
    (h : s.Faithful)
    (hfires : s.Fires xs t) :
    t.Faithful := by
  induction hfires with
  | nil => exact h
  | cons _ ih => exact ih (h.fire _)

theorem above_fires
    {d : Database}
    (h : s.database.Sound ∧ d ≤ s.database)
    (hfires : s.Fires xs t) :
    t.database.Sound ∧ d ≤ t.database := by
  induction hfires with
  | nil => exact h
  | cons _ ih => exact ih (above_fire h _)

theorem le_fires
    (hs : s.database.Sound)
    (hfires : s.Fires xs t) :
    s.database ≤ t.database :=
  (above_fires ⟨hs, le_refl _⟩ hfires).2

/-- Over a row of firings the texts traced for a relation are those of its new rows, each once. -/
theorem Faithful.tracedFor_fires
    (h : s.Faithful)
    (hfires : s.Fires xs t)
    (name : String) :
    (tracedFor name xs).Nodup ∧
      ∀ text, text ∈ tracedFor name xs ↔ s.database.GainsText t.database name text := by
  induction hfires with
  | nil =>
      refine ⟨List.nodup_nil, fun text => iff_of_false List.not_mem_nil ?_⟩
      exact Database.not_gainsText_of_relation?_eq rfl
  | @cons s t rule rest hrest ih =>
      have hafter := h.fire rule
      have hlast := hafter.fires hrest
      obtain ⟨_, hfire⟩ := above_fire ⟨h.sound, le_refl s.database⟩ rule
      have hle := le_fires hafter.sound hrest
      obtain ⟨hnodup, hmem⟩ := ih hafter
      have hfirst :
          (if rule.head.name = name then (s.fire rule).trace.derived else []).Nodup ∧
            ∀ text, text ∈ (if rule.head.name = name then (s.fire rule).trace.derived else []) ↔
              s.database.GainsText (s.fire rule).session.database name text := by
        split
        · rename_i hname
          rw [← hname]
          exact h.derived_fire rule
        · rename_i hname
          have hframe := Database.relation?_consequence_of_ne h.sound.keyed (Ne.symm hname)
          rw [← database_fire] at hframe
          refine ⟨List.nodup_nil, fun text => iff_of_false List.not_mem_nil ?_⟩
          exact Database.not_gainsText_of_relation?_eq hframe.symm
      rw [tracedFor_cons]
      constructor
      · refine List.Nodup.append hfirst.1 hnodup fun text hearly hlate => ?_
        exact Database.not_gainsText_of_gainsText hlast.sound hlast.literal hle
          ((hfirst.2 text).1 hearly) ((hmem text).1 hlate)
      · intro text
        rw [List.mem_append, hfirst.2, hmem, ← Database.gainsText_iff_or hfire hle]

end Row

section OneRow

variable {s t u : Session} {xs ys : List (Rule × RuleTrace)} {es fs : List Event}

theorem events_pass_append (s : Session) (rules others : List Rule) :
    (s.pass (rules ++ others)).events =
      (s.pass rules).events ++ ((s.pass rules).session.pass others).events := by
  induction rules generalizing s with
  | nil => rfl
  | cons rule rest ih => simp only [List.cons_append, pass, ih, List.append_assoc]

/-- Every event of a pass is a warning. -/
theorem warnings_pass (s : Session) (rules : List Rule) :
    Event.warnings (s.pass rules).events = (s.pass rules).events := by
  induction rules generalizing s with
  | nil => rfl
  | cons rule rest ih =>
      have hfirst : Event.warnings (s.fire rule).events = (s.fire rule).events := by
        rcases fire_cases s rule with ⟨obstacle, _, heq⟩ | ⟨_, _, _, _, heq⟩
        · rw [heq]
          cases obstacle <;> rfl
        · rw [heq]
          rfl
      rw [pass, Event.warnings_append, hfirst, ih]

theorem Fires.session_pass
    (h : s.Fires xs t) :
    (s.pass (xs.map Prod.fst)).session = t := by
  induction h with
  | nil => rfl
  | cons _ ih => exact ih

/-- A row of firings whose events are the given ones, but for events that are no warnings. -/
structure RunsThrough
    (s : Session) (evaluations : List (Rule × RuleTrace)) (t : Session) (events : List Event) :
    Prop where
  fires : s.Fires evaluations t
  warnings : Event.warnings events = (s.pass (evaluations.map Prod.fst)).events

theorem RunsThrough.append
    (h : s.RunsThrough xs t es)
    (h' : t.RunsThrough ys u fs) :
    s.RunsThrough (xs ++ ys) u (es ++ fs) where
  fires := h.fires.append h'.fires
  warnings := by
    rw [Event.warnings_append, h.warnings, h'.warnings, List.map_append, events_pass_append,
      h.fires.session_pass]

theorem RunsThrough.congr
    (h : s.RunsThrough xs t es)
    (hevents : Event.warnings fs = Event.warnings es) :
    s.RunsThrough xs t fs where
  fires := h.fires
  warnings := hevents.trans h.warnings

theorem length_traces_pass (s : Session) (rules : List Rule) :
    (s.pass rules).traces.length = rules.length := by
  induction rules generalizing s with
  | nil => rfl
  | cons rule rest ih => simp [pass, ih]

theorem fires_pass (s : Session) (rules : List Rule) :
    s.Fires (rules.zip (s.pass rules).traces) (s.pass rules).session := by
  induction rules generalizing s with
  | nil => exact Fires.nil
  | cons rule rest ih => exact Fires.cons (ih (s.fire rule).session)

theorem runsThrough_pass (s : Session) (rules : List Rule) :
    s.RunsThrough (rules.zip (s.pass rules).traces) (s.pass rules).session
      (s.pass rules).events where
  fires := fires_pass s rules
  warnings := by
    rw [List.map_fst_zip (length_traces_pass s rules).ge, warnings_pass]

/-- Repeated passes are one row of firings, the rules once for each pass. -/
theorem runsThrough_repeatPasses
    (members : List Nat) (rules : List Rule) (recursive : Bool)
    (bound : Nat) {number : Nat}
    (hnumber : 0 < number) :
    ∃ count,
      (s.repeatPasses members rules recursive bound number).2 + 1 = number + count ∧
      (s.repeatPasses members rules recursive bound number).1.traces.length =
        (List.replicate count rules).flatten.length ∧
      s.RunsThrough
        ((List.replicate count rules).flatten.zip
          (s.repeatPasses members rules recursive bound number).1.traces)
        (s.repeatPasses members rules recursive bound number).1.session
        (s.repeatPasses members rules recursive bound number).1.events := by
  induction bound generalizing s number with
  | zero =>
      refine ⟨0, ?_, rfl, Fires.nil, rfl⟩
      simp only [repeatPasses]
      omega
  | succ bound ih =>
      have hlength := length_traces_pass s rules
      have hnext : 0 < number + 1 := Nat.succ_pos number
      rw [repeatPasses]
      simp only
      split
      · obtain ⟨count, hcount, htraces, hruns⟩ :=
          ih (s := (s.pass rules).session) hnext
        refine ⟨count + 1, ?_, ?_, ?_⟩
        · simp only
          omega
        · simp only [List.replicate_succ, List.flatten_cons, List.length_append]
          omega
        · simp only [List.replicate_succ, List.flatten_cons]
          rw [List.zip_append hlength.symm]
          refine ((runsThrough_pass s rules).append hruns).congr ?_
          rw [Event.warnings_append, Event.warnings_append, Event.warnings_cons_of_ne]
          rintro ⟨⟩
      · refine ⟨1, rfl, ?_, ?_⟩
        · simpa using hlength
        · rw [List.replicate_one, List.flatten_singleton]
          refine (runsThrough_pass s rules).congr ?_
          rw [Event.warnings_append, Event.warnings_cons_of_ne]
          · exact List.append_nil _
          · rintro ⟨⟩

/-- The evaluations of a component are its members, once for each pass. -/
theorem evaluated_evaluateComponent
    {component : DependencyGraph} {rules : List Rule}
    (hpositions : component.Positions rules)
    (s : Session) :
    let trace := (s.evaluateComponent component).trace
    trace.evaluated rules = (List.replicate trace.passes component.memberRules).flatten := by
  rw [hpositions.memberRules_eq]
  rfl

/-- The evaluation of a component is one row of firings of its members. -/
theorem runsThrough_evaluateComponent
    {component : DependencyGraph} {rules : List Rule}
    (hpositions : component.Positions rules)
    (s : Session) :
    let run := s.evaluateComponent component
    (run.trace.evaluated rules).length = run.trace.traces.length ∧
      s.RunsThrough ((run.trace.evaluated rules).zip run.trace.traces) run.session run.events := by
  obtain ⟨count, hcount, hlength, hruns⟩ :=
    runsThrough_repeatPasses (s := s) component.ids component.memberRules component.isRecursive
      (s.database.capacity + 1) Nat.one_pos
  have hpasses : (s.evaluateComponent component).trace.passes = count := by
    rw [evaluateComponent_eq]
    unfold saturate
    simp only
    omega
  intro run
  rw [evaluated_evaluateComponent hpositions s, hpasses]
  exact ⟨hlength.symm, hruns⟩

/-- The evaluation of components in turn is one row of firings. -/
theorem runsThrough_evaluateInTurn
    {components : List DependencyGraph} {rules : List Rule}
    (hpositions : ∀ component ∈ components, component.Positions rules)
    (s : Session) :
    let runs := s.evaluateInTurn components
    let evaluations := (ScheduleTrace.byComponent runs.traces).evaluations rules
    evaluations.map Prod.snd = runs.traces.flatMap ComponentTrace.traces ∧
      s.RunsThrough evaluations runs.session runs.events := by
  induction components generalizing s with
  | nil => exact ⟨rfl, Fires.nil, rfl⟩
  | cons component rest ih =>
      obtain ⟨hlength, hfirst⟩ :=
        runsThrough_evaluateComponent (hpositions component List.mem_cons_self) s
      obtain ⟨htraces, hlater⟩ :=
        ih (fun other hother => hpositions other (List.mem_cons_of_mem _ hother))
          (s.evaluateComponent component).session
      simp only [ScheduleTrace.evaluations, ScheduleTrace.components] at htraces hlater ⊢
      simp only [evaluateInTurn, List.flatMap_cons, List.map_append]
      rw [htraces, List.map_snd_zip hlength.ge]
      exact ⟨rfl, hfirst.append hlater⟩

/-- The evaluation of all rules is one row of firings, and its traces are those that are
reported. -/
theorem runsThrough_evaluateRules
    {graph : DependencyGraph} {rules : List Rule}
    (hpositions : graph.Positions rules)
    (s : Session) (optimize : Bool) :
    let run := s.evaluateRules graph optimize
    (run.trace.evaluations rules).map Prod.snd =
        run.trace.components.flatMap ComponentTrace.traces ∧
      s.RunsThrough (run.trace.evaluations rules) run.session run.events := by
  cases optimize with
  | true =>
      obtain ⟨htraces, hruns⟩ := runsThrough_evaluateInTurn
        (fun component hcomponent => by
          obtain ⟨c, _, rfl⟩ := DependencyGraph.exists_component_of_mem hcomponent
          exact hpositions.subgraph c.members) s
      refine ⟨htraces, hruns.congr ?_⟩
      have hcomponents : Event.warnings graph.componentEvents = [] :=
        Event.warnings_eq_nil_of_forall fun event hevent => by
          obtain ⟨_, _, rfl⟩ := List.mem_map.1 hevent
          rintro ⟨⟩
      change Event.warnings (graph.componentEvents ++ _ :: _) = _
      rw [Event.warnings_append, hcomponents, Event.warnings_cons_of_ne]
      · rfl
      · rintro ⟨⟩
  | false =>
      obtain ⟨hlength, hruns⟩ := runsThrough_evaluateComponent hpositions s
      simp only [evaluateRules, ScheduleTrace.evaluations, ScheduleTrace.components,
        List.flatMap_cons, List.flatMap_nil, List.append_nil, Bool.false_eq_true, if_false]
      exact ⟨List.map_snd_zip hlength.ge, hruns⟩

end OneRow

end Session

namespace Program

/-- Under all settings, the evaluations that are reported for a program whose facts are string
literals are one row of firings from the loaded database to the final one.  For each relation they
trace the texts of the rows that it has gained, none of them twice, and a single evaluation traces a
row exactly if it changes the database. -/
theorem evaluation_traces_once
    {program : Program}
    (h : program.FactsLiteral)
    (settings : EvaluationSettings) :
    let loaded := Session.ofDatabase (Database.ofProgram program)
    let evaluation := Evaluation.ofProgram settings program
    let evaluations := evaluation.report.rules.evaluations program.rules
    evaluations.map Prod.snd =
        evaluation.report.rules.components.flatMap ComponentTrace.traces ∧
      (∀ name,
        (tracedFor name evaluations).Nodup ∧
          ∀ text, text ∈ tracedFor name evaluations ↔
            loaded.database.GainsText evaluation.database name text) ∧
      ∃ final, final.database = evaluation.database ∧ loaded.Fires evaluations final ∧
        ∀ earlier rule trace later, evaluations = earlier ++ (rule, trace) :: later →
          ∃ before, loaded.Fires earlier before ∧ trace = (before.fire rule).trace ∧
            (before.fire rule).session.Fires later final ∧
            (trace.derived ≠ [] ↔ (before.fire rule).session.database ≠ before.database) := by
  intro loaded evaluation evaluations
  have hfaithful : loaded.Faithful := faithful_ofProgram h
  obtain ⟨htraces, hruns⟩ :=
    Session.runsThrough_evaluateRules (DependencyGraph.positions_ofRules program.rules) loaded
      settings.optimize
  have hfires := hruns.fires
  refine ⟨htraces, hfaithful.tracedFor_fires hfires, _, rfl, hfires, ?_⟩
  intro earlier rule trace later heq
  have hsplit := hfires
  change Session.Fires loaded evaluations _ at hsplit
  rw [heq] at hsplit
  obtain ⟨before, hbefore, htrace, hafter⟩ := hsplit.exists_before
  refine ⟨before, hbefore, htrace, hafter, ?_⟩
  rw [htrace]
  exact (hfaithful.fires hbefore).derived_ne_nil_iff

theorem ancestry_traces_once :
    let evaluation := Evaluation.ofProgram { optimize := true } ancestry
    let traced := tracedFor "Ancestor" (evaluation.report.rules.evaluations ancestry.rules)
    ancestry.FactsLiteral ∧ traced.Nodup ∧
      ∀ text, text ∈ traced ↔
        (Database.ofProgram ancestry).GainsText evaluation.database "Ancestor" text := by
  intro evaluation traced
  have hliteral : ancestry.FactsLiteral := by decide
  obtain ⟨_, htraced, _⟩ := evaluation_traces_once hliteral { optimize := true }
  exact ⟨hliteral, htraced "Ancestor"⟩

end Program

end Tracing

end Datalog
