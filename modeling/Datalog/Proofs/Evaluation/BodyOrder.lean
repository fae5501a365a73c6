import Datalog.Proofs.Algebra.JoinLaws
import Datalog.Proofs.Evaluation.Firing
import Datalog.Proofs.Evaluation.Interchange

/-!
# The order of body predicates

**Step.** Permuting the predicates of a body permutes the matches that are joined.  The join has the
same content then, and its projection onto the head terms is the same relation.  This holds of every
database, since a match has different column names whatever its predicate and its relation are.

**Results.** So a rule derives the same whatever the order of its body, and programs that differ in
the order of their bodies alone have the same evaluation.
-/

namespace Datalog

section BodyOrder

namespace Database

/-- Relations of the same content have the same shape under any head. -/
theorem shape_of_sameContent
    {joined joined' : Relation}
    (h : joined.SameContent joined')
    (hclean : joined.Clean)
    (hclean' : joined'.Clean)
    (head : Relation) (terms : List String) :
    shape head terms joined = shape head terms joined' := by
  have hschema :
      ((joined.project terms).renameSchema head.schema).schema =
        ((joined'.project terms).renameSchema head.schema).schema :=
    Relation.schema_renameSchema_congr (h.schema_project terms) head.schema
  simp only [shape, hschema, Relation.rows_renameSchema, h.rows_project hclean hclean' terms]

/-- A rule derives the same whatever the order of its body predicates. -/
theorem derive_of_perm
    (db : Database) (head : Predicate)
    {body body' : List Predicate}
    (h : body.Perm body') :
    db.derive ⟨head, body⟩ = db.derive ⟨head, body'⟩ := by
  have hperm : (db.boundBody body).Perm (db.boundBody body') := h.filterMap _
  have hclean := db.clean_boundBody body
  unfold derive
  cases db.relation? head.name with
  | none => rfl
  | some r =>
      simp only
      cases hbody : db.boundBody body with
      | nil =>
          rw [hbody] at hperm
          rw [hperm.nil_eq]
      | cons first rest =>
          rw [hbody] at hperm hclean
          cases hbody' : db.boundBody body' with
          | nil =>
              rw [hbody'] at hperm
              exact absurd hperm.eq_nil (List.cons_ne_nil first rest)
          | cons first' rest' =>
              rw [hbody'] at hperm
              have hshape := shape_of_sameContent
                (Relation.sameContent_foldl_join hperm hclean)
                (joined_boundBody hbody).1 (joined_boundBody hbody').1 r head.terms
              simp only [hshape]

end Database

/-- The same head, and the same body predicates in some order. -/
structure Rule.Reorders (rule rule' : Rule) : Prop where
  head : rule.head = rule'.head
  body : rule.body.Perm rule'.body

theorem Rule.Reorders.derivesLike
    {rule rule' : Rule}
    (h : rule.Reorders rule') :
    rule.DerivesLike rule' := by
  obtain ⟨head, body⟩ := rule
  obtain ⟨head', body'⟩ := rule'
  obtain rfl : head = head' := h.head
  exact ⟨rfl, fun db => db.derive_of_perm head h.body⟩

theorem Rule.Reorders.sameNames
    {rule rule' : Rule}
    (h : rule.Reorders rule') :
    rule.SameNames rule' where
  head := congrArg Predicate.name h.head
  body _ := exists_congr fun _ => and_congr_left fun _ => h.body.mem_iff

namespace Program

/-- The same sections, except that the predicates of each rule body may stand in another order. -/
structure Reorders (program program' : Program) : Prop where
  schemes : program.schemes = program'.schemes
  facts : program.facts = program'.facts
  rules : List.Forall₂ Rule.Reorders program.rules program'.rules
  queries : program.queries = program'.queries

/-- The order of the body predicates does not matter, whatever the schemes, terms and values of a
program are.  Under all settings the final database is the same, and so is the report: the text of
the dependency graph, the postorder, the members and passes of each component, the rows that each
evaluation of a rule adds, and the answers.  Only the texts of the rules may differ. -/
theorem evaluation_ignores_body_order
    {program program' : Program}
    (h : program.Reorders program')
    (settings : EvaluationSettings) :
    let evaluation := Evaluation.ofProgram settings program
    let evaluation' := Evaluation.ofProgram settings program'
    evaluation.database = evaluation'.database ∧
      evaluation.report.unlabelled = evaluation'.report.unlabelled :=
  evaluation_congr h.schemes h.facts h.queries
    (h.rules.imp fun _ _ hrule => hrule.sameNames)
    (h.rules.imp fun _ _ hrule => hrule.derivesLike) settings

/-- Ancestors, with the body of the recursive rule turned around. -/
theorem ancestry_ignores_body_order :
    let turned : Program :=
      { ancestry with
        rules :=
          [⟨⟨"Ancestor", ["x", "y"]⟩, [⟨"Parent", ["x", "y"]⟩]⟩,
            ⟨⟨"Ancestor", ["x", "z"]⟩, [⟨"Ancestor", ["y", "z"]⟩, ⟨"Parent", ["x", "y"]⟩]⟩] }
    let evaluation := Evaluation.ofProgram { optimize := true } ancestry
    let evaluation' := Evaluation.ofProgram { optimize := true } turned
    ancestry.Reorders turned ∧ evaluation.database = evaluation'.database ∧
      evaluation.report.unlabelled = evaluation'.report.unlabelled := by
  intro turned evaluation evaluation'
  have hturned : ancestry.Reorders turned :=
    ⟨rfl, rfl, .cons ⟨rfl, .refl _⟩ (.cons ⟨rfl, .swap _ _ _⟩ .nil), rfl⟩
  exact ⟨hturned, evaluation_ignores_body_order hturned { optimize := true }⟩

end Program

end BodyOrder

end Datalog
