import Datalog.Proofs.Evaluation.Termination

/-!
# What every use of a session leaves as it is

**Calls.** A session is used by calls: it fires a single rule, evaluates a component, evaluates all
rules of a graph, or starts anew on its database with nothing reported.  The rules are arbitrary.

**Results.** From one moment to any later one the database keeps its names and schemas and loses no
row.  A firing adds the derived rows to the relation that the head names and touches no other one;
a rule that meets an obstacle leaves the whole session as it is.
-/

namespace Datalog

section Conservation

namespace Session

/-- One use of a session. -/
inductive Call where
  | fire (rule : Rule)
  | component (graph : DependencyGraph)
  | rules (graph : DependencyGraph) (optimize : Bool)
  | renew

/-- The session after a call. -/
def call (s : Session) : Call → Session
  | .fire rule => (s.fire rule).session
  | .component graph => (s.evaluateComponent graph).session
  | .rules graph optimize => (s.evaluateRules graph optimize).session
  | .renew => ofDatabase s.database

/-- The session after several calls. -/
def after (s : Session) (calls : List Call) : Session :=
  calls.foldl call s

section Calls

variable {s : Session} {d : Database}

theorem above_call
    (h : s.database.Sound ∧ d ≤ s.database)
    (c : Call) :
    (s.call c).database.Sound ∧ d ≤ (s.call c).database := by
  cases c with
  | fire rule => exact above_fire h rule
  | component graph =>
      exact evaluateComponent_keeps (p := fun t => t.database.Sound ∧ d ≤ t.database)
        (fun rule _ _ ht => above_fire ht rule) h
  | rules graph optimize =>
      exact evaluateRules_keeps (p := fun t => t.database.Sound ∧ d ≤ t.database)
        (fun rule _ ht => above_fire ht rule) h graph optimize
  | renew => exact h

theorem above_after
    (h : s.database.Sound ∧ d ≤ s.database)
    (calls : List Call) :
    (s.after calls).database.Sound ∧ d ≤ (s.after calls).database := by
  induction calls generalizing s with
  | nil => exact h
  | cons c rest ih => exact ih (above_call h c)

end Calls

section Firing

variable {s : Session} {rule : Rule}

/-- Firing a rule adds the derived rows to the relation of the head. -/
theorem hasRow_fire_iff
    (h : s.database.Keyed)
    {derived : Relation}
    (hderive : s.database.derive rule = .ok derived)
    {row : Row} :
    (s.fire rule).session.database.HasRow rule.head.name row ↔
      s.database.HasRow rule.head.name row ∨ row ∈ derived.rows := by
  obtain ⟨head, hhead, _, hschema⟩ := Database.exists_head_of_derive hderive
  have hafter := Database.relation?_consequence_of_derive h hhead hderive
  rw [database_fire, Database.hasRow_iff hafter, Database.hasRow_iff hhead,
    Relation.mem_union hschema.symm]

/-- A rule that meets an obstacle changes nothing. -/
theorem session_fire_of_error
    {obstacle : Obstacle}
    (herror : s.database.derive rule = .error obstacle) :
    (s.fire rule).session = s := by
  rcases fire_cases s rule with ⟨_, _, heq⟩ | ⟨_, _, _, hderive, _⟩
  · rw [heq]
  · rw [herror] at hderive
    cases hderive

end Firing

/-- Between any two moments of a row of calls, on every database and with every memory, each
relation stays under its name with its schema and its rows, and there are no other names.  A firing
at any moment adds the derived rows to the relation of its head and changes no other relation, and
it changes nothing at all if the rule meets an obstacle. -/
theorem calls_conserve
    {db : Database}
    (hdb : db.Reachable)
    (reported : OrderedMap String (OrderedSet String))
    (earlier later : List Call) :
    let s := (⟨db, reported⟩ : Session).after earlier
    let t := s.after later
    t.database.Keyed ∧
      t.database.byName.keys = s.database.byName.keys ∧
      (∀ name r, s.database.relation? name = some r →
        ∃ r', t.database.relation? name = some r' ∧ r'.name = name ∧ r'.schema = r.schema ∧
          ∀ row ∈ r.rows, row ∈ r'.rows) ∧
      ∀ rule,
        let fired := (t.fire rule).session
        (∀ name, name ≠ rule.head.name →
          fired.database.relation? name = t.database.relation? name) ∧
        (∀ derived, t.database.derive rule = .ok derived → ∀ row,
          fired.database.HasRow rule.head.name row ↔
            t.database.HasRow rule.head.name row ∨ row ∈ derived.rows) ∧
        ∀ obstacle, t.database.derive rule = .error obstacle → fired = t := by
  intro s t
  have hs : s.database.Sound :=
    (above_after (s := ⟨db, reported⟩) ⟨hdb.sound, le_refl db⟩ earlier).1
  obtain ⟨ht, hle⟩ : t.database.Sound ∧ s.database ≤ t.database :=
    above_after ⟨hs, le_refl s.database⟩ later
  refine ⟨ht.keyed, (Database.keys_eq_of_le hle).symm, ?_, fun rule => ⟨?_, ?_, ?_⟩⟩
  · intro name r hr
    obtain ⟨r', hr', _, hschema, hrows⟩ := Database.exists_le_of_le hle hr
    exact ⟨r', hr', ht.keyed name r' hr', hschema.symm, hrows⟩
  · intro name hname
    rw [database_fire]
    exact Database.relation?_consequence_of_ne ht.keyed hname
  · exact fun derived hderive row => hasRow_fire_iff ht.keyed hderive
  · exact fun obstacle herror => session_fire_of_error herror

end Session

namespace Program

/-- Calls that fire a rule with too few head terms, forget what was reported and evaluate all rules
again. -/
theorem ancestry_conserved :
    let db := Database.ofProgram ancestry
    let graph := DependencyGraph.ofRules ancestry.rules
    let short : Rule := ⟨⟨"Parent", ["x"]⟩, [⟨"Ancestor", ["x", "y"]⟩]⟩
    let s := (⟨db, ∅⟩ : Session).after [.fire short, .rules graph true]
    let t := s.after [.renew, .component graph]
    db.Reachable ∧
      t.database.byName.keys = s.database.byName.keys ∧
      ∀ r, s.database.relation? "Parent" = some r →
        ∃ r', t.database.relation? "Parent" = some r' ∧ r'.name = "Parent" ∧
          r'.schema = r.schema ∧ ∀ row ∈ r.rows, row ∈ r'.rows := by
  intro db graph short s t
  -- The result holds of any graph and any rule; evaluating these two here would take long.
  clear_value graph short
  have hdb : db.Reachable := Database.Reachable.ofProgram ancestry
  obtain ⟨_, hkeys, hrelations, _⟩ := Session.calls_conserve hdb ∅ [.fire short, .rules graph true]
    [.renew, .component graph]
  exact ⟨hdb, hkeys, hrelations "Parent"⟩

end Program

end Conservation

end Datalog
