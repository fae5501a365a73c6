import Datalog.Proofs.Evaluation.Firing
import Datalog.Proofs.Evaluation.LeastModel

/-!
# What is left when the loop stops

**Stop.** The loop over a recursive component stops after the first pass that traces no row.  Rows
are traced by their texts, so this pass can still add rows that look like rows that are there.

**Results.** Whatever the values are, the last pass adds no new text, and what the rules derived
before it is there after it.  If the database is legible then, the last pass adds no row, and the
database is closed under the rules.

**Limits.** Otherwise the loop can stop too early.  In `turning` a row that looks like another one
is added without a trace, and its own consequence is never derived.
-/

namespace Datalog

section Stopping

namespace Database

variable {d : Database} {rule : Rule} {rules : List Rule} {derived : Relation} {row : Row}

/-- Firing rules in turn adds at least what each of them derives from the first database. -/
theorem hasRow_foldl_consequence
    (h : d.Sound)
    (hrule : rule ∈ rules)
    (hderive : d.derive rule = .ok derived)
    (hrow : row ∈ derived.rows) :
    (rules.foldl consequence d).HasRow rule.head.name row := by
  induction rules generalizing d derived with
  | nil => cases hrule
  | cons first rest ih =>
      have hsound := h.consequence first
      rcases List.mem_cons.1 hrule with rfl | hrest
      · obtain ⟨head, hhead, _, hschema⟩ := exists_head_of_derive hderive
        have hadded : (d.consequence rule).HasRow rule.head.name row :=
          ⟨_, relation?_consequence_of_derive h.keyed hhead hderive,
            (Relation.mem_union hschema.symm).2 (Or.inr hrow)⟩
        exact hasRow_mono (le_foldl_consequence hsound rest) hadded
      · obtain ⟨derived', hderive', hle⟩ :=
          exists_le_of_derive (le_consequence h.keyed first) hderive
        exact ih hsound hrest hderive' (hle.2.2 row hrow)

end Database

theorem Passes.added_eq_false_iff
    {passes : Passes} :
    passes.added = false ↔ ∀ trace ∈ passes.traces, trace.derived = [] := by
  simp [Passes.added]

namespace Session

/-- The session after a number of passes over the rules. -/
def afterPasses (s : Session) (rules : List Rule) (count : Nat) : Session :=
  (fun t : Session => (t.pass rules).session)^[count] s

section Loop

variable {s : Session} {members : List Nat} {rules : List Rule}

theorem afterPasses_succ (s : Session) (rules : List Rule) (count : Nat) :
    s.afterPasses rules (count + 1) = (s.pass rules).session.afterPasses rules count :=
  rfl

theorem Truthful.afterPasses
    (h : s.Truthful)
    (rules : List Rule) (count : Nat) :
    (s.afterPasses rules count).Truthful := by
  induction count generalizing s with
  | zero => exact h
  | succ count ih => exact ih (h.pass rules)

/-- The loop over recursive rules ends with a pass that traces no row. -/
theorem Loop.last_pass
    {number : Nat} {outcome : Passes × Nat}
    (h : Loop members rules true s number outcome) :
    let last := (s.afterPasses rules (outcome.2 - number)).pass rules
    last.added = false ∧ outcome.1.session = last.session ∧ last.traces <:+ outcome.1.traces := by
  induction h with
  | @last s number hstop =>
      rw [Bool.true_and] at hstop
      rw [Nat.sub_self]
      exact ⟨hstop, rfl, List.suffix_refl _⟩
  | @again s number count rest _ hrest ih =>
      have hnumber : count - number = count - (number + 1) + 1 := by
        have hle := hrest.number_le
        omega
      obtain ⟨hadded, hsession, htraces⟩ := ih
      rw [hnumber, afterPasses_succ]
      exact ⟨hadded, hsession, htraces.trans (List.suffix_append _ _)⟩

/-- The evaluation of a recursive component ends with a pass that traces no row. -/
theorem last_pass_evaluateComponent
    {component : DependencyGraph}
    (hs : s.database.Sound)
    (hrecursive : component.isRecursive = true) :
    let run := s.evaluateComponent component
    let before := s.afterPasses component.memberRules (run.trace.passes - 1)
    let last := before.pass component.memberRules
    last.added = false ∧ run.session = last.session ∧ last.traces <:+ run.trace.traces := by
  have hloop := loop_evaluateComponent hs component
  rw [hrecursive] at hloop
  rw [evaluateComponent_eq, hrecursive]
  exact hloop.last_pass

end Loop

/-- A component is evaluated in one pass if this pass traces no row. -/
theorem evaluateComponent_of_not_added
    {s : Session} {component : DependencyGraph}
    (hs : s.database.Sound)
    (hadded : (s.pass component.memberRules).added = false) :
    (s.evaluateComponent component).session = (s.pass component.memberRules).session ∧
      (s.evaluateComponent component).trace.passes = 1 := by
  have hstop : (component.isRecursive && (s.pass component.memberRules).added) = false := by
    rw [hadded, Bool.and_false]
  rw [← (completes_iff hs).1 ⟨_, _, Loop.last hstop, rfl⟩]
  exact ⟨rfl, rfl⟩

/-- What holds when a recursive component stops, on a database that is made in any way, in a session
that has not reported anything yet.  The last pass over its rules traces no row.  What the rules
derived before this pass is there after it, and no text is new.  If different rows have different
texts, the last pass adds no row, and all rows that the rules derive from the resulting database are
in their head relations. -/
theorem evaluateComponent_stops
    {db : Database}
    (hdb : db.Reachable)
    {component : DependencyGraph}
    (hrecursive : component.isRecursive = true) :
    let run := (ofDatabase db).evaluateComponent component
    let rules := component.memberRules
    let before := (ofDatabase db).afterPasses rules (run.trace.passes - 1)
    run.session = (before.pass rules).session ∧
      (before.pass rules).traces <:+ run.trace.traces ∧
      (∀ trace ∈ (before.pass rules).traces, trace.derived = []) ∧
      (∀ rule ∈ rules, ∀ derived, before.database.derive rule = .ok derived →
        ∀ row ∈ derived.rows, run.session.database.HasRow rule.head.name row) ∧
      (∀ name, run.session.database.texts name ⊆ before.database.texts name) ∧
      (run.session.database.Legible →
        run.session.database = before.database ∧
          ∀ rule ∈ rules, run.session.database.ClosedUnder rule) := by
  intro run rules before
  have htruthful := truthful_ofDatabase hdb.sound
  have hbefore : before.Truthful := htruthful.afterPasses rules _
  obtain ⟨hadded, hsession, htraces⟩ :=
    last_pass_evaluateComponent htruthful.sound hrecursive
  refine ⟨hsession, htraces, Passes.added_eq_false_iff.1 hadded, ?_, fun name => ?_, fun h => ?_⟩
  · intro rule hrule derived hderive row hrow
    rw [hsession, database_pass]
    exact Database.hasRow_foldl_consequence hbefore.sound hrule hderive hrow
  · rw [hsession]
    exact hbefore.texts_pass hadded name
  · rw [hsession] at h ⊢
    obtain ⟨hsame, hclosed⟩ := hbefore.closedUnder_of_not_added h hadded
    rw [hsame]
    exact ⟨rfl, hclosed⟩

end Session

namespace Program

/-- The rules about ancestors are closed when their loop stops. -/
theorem ancestry_stops :
    let db := Database.ofProgram ancestry
    let component := DependencyGraph.ofRules ancestry.rules
    let run := (Session.ofDatabase db).evaluateComponent component
    db.Reachable ∧ component.isRecursive = true ∧ run.session.database.Legible ∧
      ∀ rule ∈ component.memberRules, run.session.database.ClosedUnder rule := by
  have hdb : (Database.ofProgram ancestry).Reachable := .ofProgram ancestry
  have hrecursive : (DependencyGraph.ofRules ancestry.rules).isRecursive = true := by decide
  have hliteral : ancestry.FactsLiteral := by decide
  have hafter := (faithful_ofProgram hliteral).evaluateComponent (.ofRules ancestry.rules)
  obtain ⟨_, _, _, _, _, hclosed⟩ := Session.evaluateComponent_stops hdb hrecursive
  exact ⟨hdb, hrecursive, hafter.legible, (hclosed hafter.legible).2⟩

/-- Turns the rows of a relation with three columns. -/
def turn : Rule :=
  ⟨⟨"R", ["y", "z", "x"]⟩, [⟨"R", ["x", "y", "z"]⟩]⟩

/-- A row whose first turn looks like the row itself. -/
def turning : Program where
  schemes := [⟨"R", ["a", "b", "c"]⟩]
  facts := [⟨"R", ["p", "p, b=p", "p"]⟩]
  rules := [turn]
  queries := []

theorem exists_turned
    {db : Database} {r : Relation} {x y z : String}
    (hr : db.relation? "R" = some r)
    (hwellFormed : r.WellFormed)
    (hschema : r.schema = ["a", "b", "c"])
    (hrow : [x, y, z] ∈ r.rows) :
    ∃ derived, db.derive turn = .ok derived ∧ [y, z, x] ∈ derived.rows := by
  let found := (Matching.bind r ⟨"R", ["x", "y", "z"]⟩).relation
  have hclean : r.Clean := ⟨by rw [hschema]; decide, hwellFormed⟩
  have harity : r.arity = 3 := congrArg List.length hschema
  have hterms : ∀ term ∈ ["x", "y", "z"], term ≠ "" := by decide
  have hbody : db.boundBody turn.body = [found] := by
    rw [turn, Database.boundBody_cons]
    simp only [hr]
    rfl
  have hcolumns : found.schema = ["x", "y", "z"] := by
    rw [Matching.schema_bind hclean hterms, harity]
    decide
  have hprojected : Relation.projectedSchema found.schema turn.head.terms = ["y", "z", "x"] := by
    rw [hcolumns]
    decide
  have hlength : (Relation.projectedSchema found.schema turn.head.terms).length = r.arity := by
    rw [hprojected, harity]
    rfl
  have hhead : db.relation? turn.head.name = some r := hr
  obtain ⟨derived, hderive, hrows⟩ := Database.exists_derived_of_length hhead
    hclean.nodup (by rw [hschema]; decide) (by rw [hschema]; decide) hbody hlength
  -- The three variables stand for the values of the row.
  let v : String → String := fun name => if name = "x" then x else if name = "y" then y else z
  refine ⟨derived, hderive, (hrows _).2 ⟨v, fun b hb => ?_, ?_⟩⟩
  · rw [hbody, List.mem_singleton] at hb
    rw [hb, Matching.admits_bind hclean hterms, harity]
    have hfits : Matching.Fits v ["x", "y", "z"] [x, y, z] :=
      (Matching.fits_iff_of_length (by rfl)).2 (by rfl)
    exact ⟨by decide, _, hrow, hfits⟩
  · rw [List.foldl_nil, hprojected]
    rfl

/-- A pass over the rule that traces no row adds the first turn of the fact, but not the second. -/
theorem pass_turn
    {s : Session} {fact : Relation}
    (hs : s.Truthful)
    (hfact : s.database.relation? "R" = some fact)
    (hschema : fact.schema = ["a", "b", "c"])
    (hrows : fact.rows.toList = [["p", "p, b=p", "p"]])
    (hadded : (s.pass [turn]).added = false) :
    (s.pass [turn]).session.database.HasRow "R" ["p, b=p", "p", "p"] ∧
      ¬ (s.pass [turn]).session.database.ClosedUnder turn := by
  have hrow : ["p", "p, b=p", "p"] ∈ fact.rows := by
    rw [← OrderedSet.mem_toList, hrows]
    exact List.mem_singleton_self _
  obtain ⟨derived, hderive, hfirst⟩ :=
    exists_turned hfact (hs.sound.wellFormed _ fact hfact) hschema hrow
  have hturned : (s.pass [turn]).session.database.HasRow "R" ["p, b=p", "p", "p"] := by
    rw [Session.database_pass]
    exact Database.hasRow_foldl_consequence hs.sound (List.mem_singleton_self turn) hderive hfirst
  refine ⟨hturned, fun hclosed => ?_⟩
  obtain ⟨r, hr, hturnedRow⟩ := hturned
  obtain ⟨r', hr', hle⟩ := Database.exists_le_of_le (Session.le_pass hs.sound [turn]) hfact
  rw [hr] at hr'
  cases hr'
  have hsame : r.schema = ["a", "b", "c"] := hle.2.1.symm.trans hschema
  obtain ⟨derived', hderive', hsecond⟩ := exists_turned hr
    ((Session.sound_pass hs.sound [turn]).wellFormed _ r hr) hsame hturnedRow
  have hin := hclosed derived' r hderive' hr _ hsecond
  -- The second turn has a text of its own, and the pass adds no text.
  have htext : "a=p, b=p, c=p, b=p" ∈ s.database.texts "R" := by
    refine hs.texts_pass hadded "R" (Database.mem_texts.2 ⟨r, hr, ?_⟩)
    refine Relation.mem_renderedRows.2 ⟨_, hin, ?_⟩
    rw [hsame]
    decide +kernel
  have hknown : s.database.texts "R" = ["a=p, b=p, b=p, c=p"] := by
    rw [Database.texts, hfact]
    simp only [Relation.renderedRows, hschema, hrows]
    decide +kernel
  rw [hknown] at htext
  exact absurd htext (by decide)

/-- The one pass over the rule adds a row without a trace, so there is no second pass, and what the
rule derives from this row is missing. -/
theorem turning_stops_early :
    let db := Database.ofProgram turning
    let component := DependencyGraph.ofRules turning.rules
    let run := (Session.ofDatabase db).evaluateComponent component
    db.Reachable ∧ component.isRecursive = true ∧ component.memberRules = [turn] ∧
      run.trace.passes = 1 ∧
      ¬ db.HasRow "R" ["p, b=p", "p", "p"] ∧
      run.session.database.HasRow "R" ["p, b=p", "p", "p"] ∧
      ¬ run.session.database.ClosedUnder turn := by
  have hdb : (Database.ofProgram turning).Reachable := .ofProgram turning
  have hrecursive : (DependencyGraph.ofRules turning.rules).isRecursive = true := by decide
  have hrules : (DependencyGraph.ofRules turning.rules).memberRules = [turn] := by decide
  obtain ⟨fact, hfact, hschema, hrows⟩ : ∃ fact,
      (Database.ofProgram turning).relation? "R" = some fact ∧
        fact.schema = ["a", "b", "c"] ∧ fact.rows.toList = [["p", "p, b=p", "p"]] :=
    ⟨(Relation.empty "R" ["a", "b", "c"]).insert ["p", "p, b=p", "p"], by decide, rfl, rfl⟩
  have hnew : ¬ (Database.ofProgram turning).HasRow "R" ["p, b=p", "p", "p"] := by
    rw [Database.hasRow_iff hfact, ← OrderedSet.mem_toList, hrows]
    decide
  have hadded : ((Session.ofDatabase (Database.ofProgram turning)).pass [turn]).added = false := by
    unfold Session.pass Session.fire Database.derive Database.boundBody Matching.bind
      Matching.select Matching.firstColumns Matching.constants Matching.repetitions
      Matching.variableNames
    simp only [TermKind.isConstant_eq]
    cbv
  have htruthful := Session.truthful_ofDatabase hdb.sound
  obtain ⟨hturned, hopen⟩ := pass_turn htruthful hfact hschema hrows hadded
  rw [← hrules] at hadded hturned hopen
  obtain ⟨hsession, hpasses⟩ := Session.evaluateComponent_of_not_added htruthful.sound hadded
  rw [← hsession] at hturned hopen
  exact ⟨hdb, hrecursive, hrules, hpasses, hnew, hturned, hopen⟩

end Program

end Stopping

end Datalog
