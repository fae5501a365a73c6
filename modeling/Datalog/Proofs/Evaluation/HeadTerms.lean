import Datalog.Proofs.Algebra.Renaming
import Datalog.Proofs.Evaluation.Firing
import Datalog.Proofs.Evaluation.Issues
import Datalog.Proofs.Evaluation.Tracing

/-!
# Head terms that the checks report

**Faults.** The checks report a head with too many or too few terms, and head terms that no body
predicate binds.

**Counting.** A rule itself never looks at its head terms one by one.  Those that are columns of the
matches are kept, each once, and the rule contributes if they are as many as the head relation has
columns.

**Results.** A rule with a fault in its head contributes only if it overfills the head: it has more
terms than columns, and the right number of them is left.  In every other case firing it changes
nothing.
-/

namespace Datalog

section HeadTerms

/-- The issue is about the number of head terms of the rule, or about one that is not bound. -/
inductive Issue.FaultsHead (rule : Rule) : Issue → Prop
  | arity (expected : Nat) : FaultsHead rule (.arityMismatch .ruleHead rule.head expected)
  | unbound (name : String) : FaultsHead rule (.unboundHeadVariable rule name)

/-- The head has another number of terms than its relation has columns, or a term that no body
predicate has as a variable. -/
def Rule.Misfits (rule : Rule) (head : Relation) : Prop :=
  head.arity ≠ rule.head.terms.length ∨
    ∃ name ∈ rule.head.terms,
      ∀ predicate ∈ rule.body, name ∈ predicate.terms → TermKind.isConstant name = true

namespace Database

/-- The head terms that are columns of the matches, each once, are as many as the head relation has
columns, and the head has more terms than that. -/
def Overfills (db : Database) (rule : Rule) : Prop :=
  ∃ head names, db.relation? rule.head.name = some head ∧
    FirstOccurrences rule.head.terms (fun term => ∃ b ∈ db.boundBody rule.body, term ∈ b.schema)
      names ∧
    names.length = head.arity ∧ head.arity < rule.head.terms.length

section Counting

variable {db : Database} {rule : Rule} {head : Relation}

theorem not_overfills_of_length_le
    (hhead : db.relation? rule.head.name = some head)
    (hlength : rule.head.terms.length ≤ head.arity) :
    ¬ db.Overfills rule := by
  rintro ⟨head', names, hhead', _, _, hlt⟩
  rw [hhead] at hhead'
  cases hhead'
  exact absurd hlt (Nat.not_lt.2 hlength)

/-- A rule derives rows only if the right number of head terms is left. -/
theorem exists_names_of_derive
    {derived : Relation}
    (hderive : db.derive rule = .ok derived) :
    ∃ head names, db.relation? rule.head.name = some head ∧
      FirstOccurrences rule.head.terms (fun term => ∃ b ∈ db.boundBody rule.body, term ∈ b.schema)
        names ∧
      names.length = head.arity := by
  obtain ⟨head, first, rest, hhead, hbody, _⟩ := derive_eq_ok_iff.1 hderive
  refine ⟨head, _, hhead, firstOccurrences_projected hbody rule.head.terms, ?_⟩
  by_contra hlength
  rw [derive_of_length_ne hhead hbody hlength] at hderive
  cases hderive

/-- A term that no body predicate has as a variable is no column of the matches. -/
theorem not_column_of_unbound
    (hterms : ∀ predicate ∈ rule.body, ∀ term ∈ predicate.terms, term ≠ "")
    {name : String}
    (hunbound :
      ∀ predicate ∈ rule.body, name ∈ predicate.terms → TermKind.isConstant name = true) :
    ¬ ∃ b ∈ db.boundBody rule.body, name ∈ b.schema := by
  rintro ⟨b, hb, hcolumn⟩
  obtain ⟨predicate, hpredicate, r, _, rfl⟩ := mem_boundBody.1 hb
  obtain ⟨hmem, hvariable, _⟩ := Matching.mem_variableNames.1
    (Matching.schema_bind_subset (hterms predicate hpredicate) hcolumn)
  rw [hunbound predicate hpredicate hmem] at hvariable
  cases hvariable

/-- Of the terms of a head that does not fit, as many can be left as there are columns only if there
are more of them. -/
theorem overfills_of_derive
    (hterms : ∀ predicate ∈ rule.body, ∀ term ∈ predicate.terms, term ≠ "")
    (hhead : db.relation? rule.head.name = some head)
    (hmisfits : rule.Misfits head)
    {derived : Relation}
    (hderive : db.derive rule = .ok derived) :
    db.Overfills rule := by
  obtain ⟨head', names, hhead', hnames, hlength⟩ := exists_names_of_derive hderive
  rw [hhead] at hhead'
  cases hhead'
  refine ⟨head, names, hhead, hnames, hlength, ?_⟩
  -- The names that are left are at most as many as the terms, and fewer if a term is unbound.
  rcases hmisfits with hne | ⟨name, hmem, hunbound⟩
  · exact lt_of_le_of_ne (hlength ▸ hnames.length_le) hne
  · exact hlength ▸ hnames.length_lt hmem (not_column_of_unbound hterms hunbound)

/-- A rule that overfills its head contributes all the same, if the columns of the head relation
have different names. -/
theorem Overfills.exists_derived
    (h : db.Overfills rule)
    (hhead : db.relation? rule.head.name = some head)
    (hnodup : head.schema.Nodup)
    (hcolumns : ∀ column ∈ head.schema, column ≠ "")
    (hne : head.schema ≠ []) :
    ∃ derived, db.derive rule = .ok derived := by
  obtain ⟨head', names, hhead', hnames, hlength, _⟩ := h
  rw [hhead] at hhead'
  cases hhead'
  have hbody : db.boundBody rule.body ≠ [] := by
    intro hnil
    have hpos : 0 < names.length := hlength ▸ List.length_pos_iff.2 hne
    obtain ⟨name, hname⟩ := List.length_pos_iff_exists_mem.1 hpos
    obtain ⟨_, b, hb, _⟩ := (hnames.mem_iff name).1 hname
    rw [hnil] at hb
    exact absurd hb List.not_mem_nil
  obtain ⟨first, rest, hbound⟩ := List.exists_cons_of_ne_nil hbody
  have hprojected := congrArg List.length
    ((firstOccurrences_projected hbound rule.head.terms).unique hnames)
  obtain ⟨derived, hderive, _⟩ :=
    exists_derived_of_length hhead hnodup hcolumns hne hbound (hprojected.trans hlength)
  exact ⟨derived, hderive⟩

end Counting

end Database

namespace Program

section Faults

variable {program : Program} {rule : Rule} {issue : Issue}

/-- What an issue about the head says holds in every database above the loaded one. -/
theorem misfits_of_faultsHead
    (hissue : issue ∈ program.issues)
    (hfault : issue.FaultsHead rule)
    {db : Database}
    (hle : Database.ofProgram program ≤ db)
    {head : Relation}
    (hhead : db.relation? rule.head.name = some head) :
    rule.Misfits head := by
  cases hfault with
  | arity expected =>
      obtain ⟨hdeclared, hne⟩ := declaredArity?_of_arityMismatch hissue
      obtain ⟨_, _, r, hr, _, harity⟩ := Database.exists_relation_of_le hle hdeclared
      rw [hhead] at hr
      cases hr
      exact Or.inl (harity ▸ hne)
  | unbound name => exact Or.inr ⟨name, unbound_of_unboundHeadVariable hissue⟩

/-- At every moment of the evaluation of a program of the grammar's shape, a rule whose head has an
issue contributes only if it overfills the head.  If it does not, firing it leaves the session as it
is, its memory of reported rows included, and traces nothing.  If it does, and the columns of the
head relation have different names, it derives a relation in spite of the issue. -/
theorem faulty_head_adds_nothing
    (hshaped : program.Shaped)
    (hrule : rule ∈ program.rules)
    (hissue : issue ∈ program.issues)
    (hfault : issue.FaultsHead rule)
    {evaluations : List (Rule × RuleTrace)} {t : Session}
    (hreached : (Session.ofDatabase (Database.ofProgram program)).Fires evaluations t) :
    (¬ t.database.Overfills rule →
      (t.fire rule).session = t ∧ (t.fire rule).trace.derived = []) ∧
    ∀ head, t.database.relation? rule.head.name = some head → head.schema.Nodup →
      ((∃ derived, t.database.derive rule = .ok derived) ↔ t.database.Overfills rule) := by
  have hle : Database.ofProgram program ≤ t.database :=
    Session.le_fires (Database.sound_ofProgram program) hreached
  have hoverfills {derived : Relation} (hderive : t.database.derive rule = .ok derived) :
      t.database.Overfills rule := by
    obtain ⟨head, hhead, _⟩ := Database.exists_head_of_derive hderive
    exact Database.overfills_of_derive (hshaped.body_terms hrule) hhead
      (misfits_of_faultsHead hissue hfault hle hhead) hderive
  constructor
  · intro hfits
    rcases Session.fire_cases t rule with ⟨_, _, heq⟩ | ⟨_, _, _, hderive, _⟩
    · rw [heq]
      exact ⟨rfl, rfl⟩
    · exact absurd (hoverfills hderive) hfits
  · intro head hhead hnodup
    refine ⟨fun ⟨_, hderive⟩ => hoverfills hderive, fun h => ?_⟩
    obtain ⟨hne, hcolumns⟩ := hshaped.columns_of_le hle hhead
    exact h.exists_derived hhead hnodup hcolumns hne

/-- One pair, and three rules that pass it on: one with an unbound head variable, one with a head
term too few, and one with an unbound head variable too many. -/
def misheaded : Program where
  schemes := [⟨"P", ["a", "b"]⟩, ⟨"H", ["a", "b"]⟩]
  facts := [⟨"P", ["'1'", "'2'"]⟩]
  rules :=
    [⟨⟨"H", ["x", "w"]⟩, [⟨"P", ["x", "y"]⟩]⟩,
      ⟨⟨"H", ["x"]⟩, [⟨"P", ["x", "y"]⟩]⟩,
      ⟨⟨"H", ["x", "y", "w"]⟩, [⟨"P", ["x", "y"]⟩]⟩]
  queries := [⟨"H", ["x", "y"]⟩]

/-- The first rule adds nothing, not even when the last one has been fired. -/
theorem misheaded_adds_nothing :
    let rule : Rule := ⟨⟨"H", ["x", "w"]⟩, [⟨"P", ["x", "y"]⟩]⟩
    let overfull : Rule := ⟨⟨"H", ["x", "y", "w"]⟩, [⟨"P", ["x", "y"]⟩]⟩
    let s := Session.ofDatabase (Database.ofProgram misheaded)
    let t := (s.fire overfull).session
    misheaded.Shaped ∧ rule ∈ misheaded.rules ∧
      Issue.unboundHeadVariable rule "w" ∈ misheaded.issues ∧
      (Issue.unboundHeadVariable rule "w").FaultsHead rule ∧
      s.Fires [(overfull, (s.fire overfull).trace)] t ∧ ¬ t.database.Overfills rule ∧
      (t.fire rule).session = t := by
  intro rule overfull s t
  have hshaped : misheaded.Shaped := by decide +kernel
  have hrule : rule ∈ misheaded.rules := by decide
  have hissue : Issue.unboundHeadVariable rule "w" ∈ misheaded.issues := by decide
  have hfault : (Issue.unboundHeadVariable rule "w").FaultsHead rule :=
    Issue.FaultsHead.unbound "w"
  have hreached : s.Fires [(overfull, (s.fire overfull).trace)] t :=
    Session.Fires.cons Session.Fires.nil
  have hdeclared : misheaded.declaredArity? "H" = some 2 := by decide
  obtain ⟨_, _, head, hhead, _, harity⟩ := Database.exists_relation_of_le
    (Session.le_fires (Database.sound_ofProgram misheaded) hreached) hdeclared
  have hfits : ¬ t.database.Overfills rule :=
    Database.not_overfills_of_length_le hhead (Nat.le_of_eq harity.symm)
  exact ⟨hshaped, hrule, hissue, hfault, hreached, hfits,
    ((faulty_head_adds_nothing hshaped hrule hissue hfault hreached).1 hfits).1⟩

/-- The last rule has both faults and adds a row. -/
theorem misheaded_adds :
    let rule : Rule := ⟨⟨"H", ["x", "y", "w"]⟩, [⟨"P", ["x", "y"]⟩]⟩
    misheaded.Shaped ∧ rule ∈ misheaded.rules ∧
      Issue.arityMismatch .ruleHead rule.head 2 ∈ misheaded.issues ∧
      Issue.unboundHeadVariable rule "w" ∈ misheaded.issues ∧
      ((Database.ofProgram misheaded).relation? "H").map (fun r => r.rows.toList) = some [] ∧
      (((Session.ofDatabase (Database.ofProgram misheaded)).fire
        rule).session.database.relation? "H").map (fun r => r.rows.toList) =
          some [["'1'", "'2'"]] := by
  refine ⟨by decide +kernel, by decide, by decide, by decide, by decide +kernel, ?_⟩
  rw [Session.database_fire]
  unfold Database.consequence Database.derive Database.boundBody Matching.bind Matching.select
    Matching.firstColumns Matching.constants Matching.repetitions Matching.variableNames
  simp only [TermKind.isConstant_eq]
  cbv

end Faults

end Program

end HeadTerms

end Datalog
