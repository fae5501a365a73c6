import Datalog.Proofs.Evaluation.BodyOrder
import Datalog.Proofs.Evaluation.Conservation
import Datalog.Proofs.Evaluation.Semantics

/-!
# Body predicates without variables

**Match.** A predicate is ground if all its terms are constants.  Matching it gives a relation
without columns, and a relation without columns has no rows, whether some row agrees with the
constants or not.

**Join.** Joined with such a match, the other matches keep their columns and lose all their rows.

**Results.** A ground body predicate of a declared relation does not change which schema a rule
derives or which obstacle it meets, but it takes all rows away.  So firing such a rule adds nothing,
although a query of the same predicate is answered by the rows that agree.
-/

namespace Datalog

section GroundBody

namespace Matching

variable {predicate : Predicate}

theorem variableNames_of_ground
    {terms : List String}
    (h : ∀ term ∈ terms, TermKind.isConstant term = true)
    (arity : Nat) :
    variableNames arity terms = [] := by
  rw [List.eq_nil_iff_forall_not_mem]
  intro name hname
  obtain ⟨hmem, hvariable, _⟩ := mem_variableNames.1 hname
  rw [h name hmem] at hvariable
  cases hvariable

/-- Matching a ground predicate gives no columns and no rows. -/
theorem relation_bind_of_ground
    (h : ∀ term ∈ predicate.terms, TermKind.isConstant term = true)
    (r : Relation) :
    (bind r predicate).relation = Relation.empty r.name [] := by
  have hcolumns : firstColumns r.schema predicate.terms = [] := by
    rw [firstColumns_eq, variableNames_of_ground h, List.map_nil]
  unfold bind
  rw [hcolumns, variableNames_of_ground h]
  rfl

end Matching

namespace Relation

section Emptying

variable {l r : Relation} {name : String} {schema : Row}

theorem eq_empty_of_no_rows
    (hname : r.name = name)
    (hschema : r.schema = schema)
    (hrows : ∀ row, row ∉ r.rows) :
    r = empty name schema :=
  eq_of_mem_iff hname hschema fun row =>
    iff_of_false (hrows row) (OrderedSet.not_mem_empty row)

theorem empty_join (name : String) (schema : Row) (r : Relation) :
    (empty name schema).join r = empty name (joinedSchema schema r.schema) := by
  refine eq_empty_of_no_rows rfl rfl fun row hrow => ?_
  obtain ⟨left, hleft, _⟩ := mem_join.1 hrow
  exact OrderedSet.not_mem_empty left hleft

/-- Without rows on the left, joining gives the columns that it would give anyway, and no rows. -/
theorem foldl_empty_join (name : String) (l : Relation) (rest : List Relation) :
    rest.foldl join (empty name l.schema) = empty name (rest.foldl join l).schema := by
  induction rest generalizing l with
  | nil => rfl
  | cons r rest ih =>
      rw [List.foldl_cons, empty_join]
      exact ih (l.join r)

theorem joinedSchema_nil (schema : Row) :
    joinedSchema [] schema = schema := by
  simp [joinedSchema]

end Emptying

end Relation

namespace Database

section Deriving

variable {db : Database} {head : Predicate} {body before after : List Predicate}
  {ground : Predicate}

/-- A relation without rows takes the same shape, without rows. -/
theorem shape_empty (head : Relation) (terms : List String) (name : String) (joined : Relation) :
    shape head terms (Relation.empty name joined.schema) =
      Relation.empty head.name (shape head terms joined).schema := by
  have hproject : ((Relation.empty name joined.schema).project terms).schema =
      (joined.project terms).schema := rfl
  refine Relation.eq_empty_of_no_rows rfl
    (Relation.schema_renameSchema_congr hproject head.schema) fun row hrow => ?_
  rw [shape, Relation.rows_renameSchema, Relation.mem_project] at hrow
  obtain ⟨_, source, hsource, _⟩ := hrow
  exact OrderedSet.not_mem_empty source hsource

/-- A ground predicate of a declared relation in front of a body takes the rows away. -/
theorem derive_cons_of_ground
    (hground : ∀ term ∈ ground.terms, TermKind.isConstant term = true)
    {r : Relation}
    (hr : db.relation? ground.name = some r)
    (hbody : db.boundBody body ≠ []) :
    db.derive ⟨head, ground :: body⟩ =
      (db.derive ⟨head, body⟩).map fun derived => .empty derived.name derived.schema := by
  obtain ⟨first, rest, hbound⟩ := List.exists_cons_of_ne_nil hbody
  have hjoined : (first :: rest).foldl Relation.join (Relation.empty r.name []) =
      Relation.empty r.name (rest.foldl Relation.join first).schema := by
    rw [List.foldl_cons, Relation.empty_join, Relation.joinedSchema_nil,
      Relation.foldl_empty_join]
  unfold derive
  simp only [boundBody_cons, hr, Matching.relation_bind_of_ground hground, hbound]
  cases db.relation? head.name with
  | none => rfl
  | some headRelation =>
      simp only [hjoined, shape_empty]
      by_cases hschema :
          (shape headRelation head.terms (rest.foldl Relation.join first)).schema =
            headRelation.schema
      · rw [if_pos hschema]
        exact if_pos hschema
      · rw [if_neg hschema]
        exact if_neg hschema

/-- Wherever it stands in the body. -/
theorem derive_of_ground
    (hground : ∀ term ∈ ground.terms, TermKind.isConstant term = true)
    {r : Relation}
    (hr : db.relation? ground.name = some r)
    (hbody : db.boundBody (before ++ after) ≠ []) :
    db.derive ⟨head, before ++ ground :: after⟩ =
      (db.derive ⟨head, before ++ after⟩).map fun derived =>
        .empty derived.name derived.schema := by
  rw [db.derive_of_perm head List.perm_middle, derive_cons_of_ground hground hr hbody]

theorem consequence_of_ground
    (hkeyed : db.Keyed)
    (hground : ∀ term ∈ ground.terms, TermKind.isConstant term = true)
    {r : Relation}
    (hr : db.relation? ground.name = some r)
    (hbody : db.boundBody (before ++ after) ≠ []) :
    db.consequence ⟨head, before ++ ground :: after⟩ = db := by
  refine consequence_eq_of_no_rows hkeyed fun derived hderive row hrow => ?_
  rw [derive_of_ground hground hr hbody] at hderive
  cases hrest : db.derive ⟨head, before ++ after⟩ with
  | error obstacle =>
      rw [hrest] at hderive
      cases hderive
  | ok derived' =>
      rw [hrest] at hderive
      cases hderive
      exact OrderedSet.not_mem_empty row hrow

end Deriving

end Database

namespace Session

/-- What a ground body predicate of a declared relation does to a rule that has another body
predicate of a declared relation, wherever it stands and whether a row agrees with it or not.  The
rule derives the schema that it derives without the ground predicate, or meets the obstacle that it
meets then, but it derives no rows.  So firing it leaves the database as it is and traces nothing,
and leaving the ground predicate out makes no difference only if the database is closed under what
is left of the rule. -/
theorem ground_predicate_empties
    {s : Session}
    (hkeyed : s.database.Keyed)
    (head : Predicate) {before after : List Predicate}
    {ground : Predicate}
    (hground : ∀ term ∈ ground.terms, TermKind.isConstant term = true)
    {r : Relation}
    (hr : s.database.relation? ground.name = some r)
    (hother : ∃ predicate ∈ before ++ after, ∃ other,
      s.database.relation? predicate.name = some other) :
    let rule : Rule := ⟨head, before ++ ground :: after⟩
    let rest : Rule := ⟨head, before ++ after⟩
    s.database.derive rule =
        (s.database.derive rest).map (fun derived => .empty derived.name derived.schema) ∧
      (s.fire rule).session.database = s.database ∧
      (s.fire rule).trace.derived = [] ∧
      ((s.fire rule).session.database = (s.fire rest).session.database ↔
        s.database.ClosedUnder rest) := by
  intro rule rest
  have hbody := Database.boundBody_ne_nil_iff.2 hother
  have hsame : s.database.consequence rule = s.database :=
    Database.consequence_of_ground hkeyed hground hr hbody
  refine ⟨Database.derive_of_ground hground hr hbody, ?_, ?_, ?_⟩
  · rw [database_fire, hsame]
  · by_contra htraced
    exact consequence_ne_of_derived_ne_nil htraced hsame
  · rw [database_fire, database_fire, hsame, Database.closedUnder_iff hkeyed]
    exact eq_comm

end Session

namespace Program

/-- A ground predicate that a row agrees with, between two others, and one that no row agrees with,
in front. -/
theorem ancestry_emptied :
    let db := Database.ofProgram ancestry
    let s := Session.ofDatabase db
    let step : List Predicate := [⟨"Parent", ["x", "y"]⟩, ⟨"Ancestor", ["y", "z"]⟩]
    let holding : Predicate := ⟨"Parent", ["'ann'", "'bob'"]⟩
    let failing : Predicate := ⟨"Parent", ["'bob'", "'ann'"]⟩
    db.Keyed ∧ (∀ term ∈ holding.terms, TermKind.isConstant term = true) ∧
      (∀ term ∈ failing.terms, TermKind.isConstant term = true) ∧
      (∃ r, db.relation? "Parent" = some r) ∧
      (s.fire ⟨⟨"Ancestor", ["x", "z"]⟩,
        [⟨"Parent", ["x", "y"]⟩, holding, ⟨"Ancestor", ["y", "z"]⟩]⟩).session.database = db ∧
      (s.fire ⟨⟨"Ancestor", ["x", "z"]⟩, failing :: step⟩).session.database = db := by
  intro db s step holding failing
  have hkeyed : db.Keyed := (Database.sound_ofProgram ancestry).keyed
  have hholding : ∀ term ∈ holding.terms, TermKind.isConstant term = true := by decide
  have hfailing : ∀ term ∈ failing.terms, TermKind.isConstant term = true := by decide
  obtain ⟨r, hr⟩ : ∃ r, db.relation? "Parent" = some r := by
    rw [← Option.isSome_iff_exists]
    decide
  have hother : ∃ predicate ∈ step, ∃ other, db.relation? predicate.name = some other :=
    ⟨_, List.mem_cons_self, r, hr⟩
  have hbetween : (s.fire ⟨⟨"Ancestor", ["x", "z"]⟩,
      [⟨"Parent", ["x", "y"]⟩] ++ holding :: [⟨"Ancestor", ["y", "z"]⟩]⟩).session.database = db :=
    (Session.ground_predicate_empties hkeyed _ hholding hr hother).2.1
  have hinFront :
      (s.fire ⟨⟨"Ancestor", ["x", "z"]⟩, [] ++ failing :: step⟩).session.database = db :=
    (Session.ground_predicate_empties hkeyed _ hfailing hr hother).2.1
  exact ⟨hkeyed, hholding, hfailing, ⟨r, hr⟩, hbetween, hinFront⟩

/-- Parents are ancestors, and a rule that asks for nothing else but that ann is a parent of bob,
which she is, gives no ancestor at all. -/
theorem ancestry_gate_shuts :
    let db := Database.ofProgram ancestry
    let s := Session.ofDatabase db
    let parent : Predicate := ⟨"Parent", ["x", "y"]⟩
    let gate : Predicate := ⟨"Parent", ["'ann'", "'bob'"]⟩
    (∀ term ∈ gate.terms, TermKind.isConstant term = true) ∧
      (db.answer gate).isYes = true ∧
      (∃ r, db.relation? parent.name = some r) ∧
      (s.fire ⟨⟨"Ancestor", ["x", "y"]⟩, [parent]⟩).session.database.HasRow
        "Ancestor" ["'ann'", "'bob'"] ∧
      ¬ (s.fire ⟨⟨"Ancestor", ["x", "y"]⟩, [parent, gate]⟩).session.database.HasRow
        "Ancestor" ["'ann'", "'bob'"] := by
  intro db s parent gate
  have hsound : db.Sound := Database.sound_ofProgram ancestry
  have hground : ∀ term ∈ gate.terms, TermKind.isConstant term = true := by decide
  have hchecked : ancestry.Checked := checked_of_issues_eq_nil (by decide)
  have hgate : gate ∈ ancestry.facts := by decide
  obtain ⟨r, hr, hfact⟩ := Database.exists_row_of_fact hchecked hgate
  have hbody : db.boundBody ([parent] ++ []) ≠ [] :=
    Database.boundBody_ne_nil_iff.2 ⟨parent, List.mem_cons_self, r, hr⟩
  have hshaped : ancestry.Shaped := by decide +kernel
  have hsuits : db.Suits ⟨⟨"Ancestor", ["x", "y"]⟩, [parent]⟩ :=
    suits_of_le hshaped hchecked (by decide) (by decide) (le_refl db) hsound.wellFormed
      List.mem_cons_self
  obtain ⟨derived, hderive, hrows⟩ := hsuits.exists_derived
  have hrow : ["'ann'", "'bob'"] ∈ derived.rows := by
    -- The variables stand for the values of the fact.
    refine (hrows _).2 ⟨fun name => if name = "x" then "'ann'" else "'bob'", ?_, by decide⟩
    intro predicate hpredicate
    rw [List.mem_singleton.1 hpredicate]
    exact ⟨r, hr, hfact⟩
  refine ⟨hground, by decide, ⟨r, hr⟩, ?_, ?_⟩
  · exact (Session.hasRow_fire_iff hsound.keyed hderive).2 (Or.inr hrow)
  · rw [Session.database_fire]
    change ¬ (db.consequence ⟨_, [parent] ++ gate :: []⟩).HasRow _ _
    rw [Database.consequence_of_ground hsound.keyed hground hr hbody]
    rintro ⟨ancestors, hancestors, hin⟩
    obtain ⟨fact, hmem, hname, _⟩ := Database.exists_fact_of_mem hancestors hin
    exact absurd hname (by revert fact; decide)

end Program

end GroundBody

end Datalog
