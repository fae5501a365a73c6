import Datalog.Proofs.Evaluation.Loading

/-!
# The issues of a program and the facts that loading skips

**Places.** An issue about the shape of a predicate says where the predicate stands.  The issues of
one place stand together, in the order of the predicates.

**Arities.** The checks go by the number of terms of the last scheme of a name, and loading by the
number of columns of the relation that is stored under it.  These are the same number, at every
moment of the loading.

**Results.** Loading gives each declared name the columns of its last scheme and the facts of that
many terms.  Its events tell, one by one, of the faults of the facts that the checks report.
-/

namespace Datalog

section Issues

/-- Where the predicate stands, in an issue about the shape of a predicate. -/
def Issue.place? : Issue → Option Place
  | undeclaredRelation place _ | arityMismatch place _ _ => some place
  | duplicateScheme _ | duplicateColumn _ _ | unboundHeadVariable _ _ => none

namespace Program

section Places

variable {program : Program} {issue : Issue} {place : Place} {predicate : Predicate}

theorem shapeIssue?_eq_some_iff :
    program.shapeIssue? place predicate = some issue ↔
      (program.declaredArity? predicate.name = none ∧
        issue = .undeclaredRelation place predicate) ∨
      ∃ expected, program.declaredArity? predicate.name = some expected ∧
        expected ≠ predicate.terms.length ∧ issue = .arityMismatch place predicate expected := by
  unfold shapeIssue?
  cases program.declaredArity? predicate.name with
  | none => simp [eq_comm]
  | some expected => simp [eq_comm]

theorem place?_of_shapeIssue?
    (h : program.shapeIssue? place predicate = some issue) :
    issue.place? = some place := by
  rcases shapeIssue?_eq_some_iff.1 h with ⟨_, rfl⟩ | ⟨_, _, _, rfl⟩ <;> rfl

/-- The issues of schemes are about repeated names and repeated columns. -/
theorem mem_schemeIssues_cases
    {declared : List String} {schemes : List Predicate}
    (h : issue ∈ schemeIssues declared schemes) :
    (∃ relation, issue = .duplicateScheme relation) ∨
      ∃ relation column, issue = .duplicateColumn relation column := by
  induction schemes generalizing declared with
  | nil => cases h
  | cons scheme rest ih =>
      rw [schemeIssues, List.mem_append, List.mem_append] at h
      rcases h with (hname | hcolumn) | hrest
      · split at hname
        · exact Or.inl ⟨_, List.mem_singleton.1 hname⟩
        · cases hname
      · obtain ⟨column, _, rfl⟩ := List.mem_map.1 hcolumn
        exact Or.inr ⟨_, column, rfl⟩
      · exact ih hrest

theorem place?_of_mem_schemeIssues
    {declared : List String} {schemes : List Predicate}
    (h : issue ∈ schemeIssues declared schemes) :
    issue.place? = none := by
  rcases mem_schemeIssues_cases h with ⟨_, rfl⟩ | ⟨_, _, rfl⟩ <;> rfl

/-- The unbound head variables of a rule are its head terms that no body predicate has as a
variable. -/
theorem mem_unboundIssues
    {rule : Rule} :
    issue ∈ unboundIssues rule ↔
      ∃ name ∈ rule.head.terms,
        (∀ predicate ∈ rule.body, name ∈ predicate.terms → TermKind.isConstant name = true) ∧
        issue = .unboundHeadVariable rule name := by
  unfold unboundIssues
  simp only [List.mem_map, List.mem_filter, Bool.not_eq_true', List.contains_eq_mem,
    decide_eq_false_iff_not, List.mem_flatMap, not_and, Bool.not_eq_false, forall_exists_index,
    and_imp, and_assoc]
  simp only [eq_comm]

theorem place?_of_mem_unboundIssues
    {rule : Rule}
    (h : issue ∈ unboundIssues rule) :
    issue.place? = none := by
  obtain ⟨_, _, _, rfl⟩ := mem_unboundIssues.1 h
  rfl

theorem place?_of_mem_ruleShapeIssues
    {rule : Rule}
    (h : issue ∈ program.ruleShapeIssues rule) :
    issue.place? = some .ruleHead ∨ issue.place? = some .ruleBody := by
  rw [ruleShapeIssues, List.mem_append, Option.mem_toList, List.mem_filterMap] at h
  rcases h with hhead | ⟨_, _, hbody⟩
  · exact Or.inl (place?_of_shapeIssue? hhead)
  · exact Or.inr (place?_of_shapeIssue? hbody)

/-- Every issue is about the schemes, the shape of a predicate or the head variables of a rule. -/
theorem mem_issues_cases
    (h : issue ∈ program.issues) :
    issue ∈ schemeIssues [] program.schemes ∨
      (∃ place predicate, program.shapeIssue? place predicate = some issue) ∨
      ∃ rule ∈ program.rules, issue ∈ unboundIssues rule := by
  simp only [issues, List.mem_append, List.mem_filterMap, List.mem_flatMap] at h
  rcases h with
    (((hscheme | ⟨fact, _, hfact⟩) | ⟨rule, _, hrule⟩) | ⟨query, _, hquery⟩) | hunbound
  · exact Or.inl hscheme
  · exact Or.inr (Or.inl ⟨_, fact, hfact⟩)
  · rw [ruleShapeIssues, List.mem_append, Option.mem_toList, List.mem_filterMap] at hrule
    rcases hrule with hhead | ⟨predicate, _, hbody⟩
    · exact Or.inr (Or.inl ⟨_, rule.head, hhead⟩)
    · exact Or.inr (Or.inl ⟨_, predicate, hbody⟩)
  · exact Or.inr (Or.inl ⟨_, query, hquery⟩)
  · exact Or.inr (Or.inr hunbound)

theorem declaredArity?_of_arityMismatch
    {expected : Nat}
    (h : .arityMismatch place predicate expected ∈ program.issues) :
    program.declaredArity? predicate.name = some expected ∧
      expected ≠ predicate.terms.length := by
  rcases mem_issues_cases h with hscheme | ⟨_, _, hshape⟩ | ⟨_, _, hunbound⟩
  · exact absurd (place?_of_mem_schemeIssues hscheme) nofun
  · rcases shapeIssue?_eq_some_iff.1 hshape with ⟨_, heq⟩ | ⟨_, hdeclared, hne, heq⟩
    · cases heq
    · cases heq
      exact ⟨hdeclared, hne⟩
  · exact absurd (place?_of_mem_unboundIssues hunbound) nofun

theorem unbound_of_unboundHeadVariable
    {rule : Rule} {name : String}
    (h : .unboundHeadVariable rule name ∈ program.issues) :
    name ∈ rule.head.terms ∧
      ∀ predicate ∈ rule.body, name ∈ predicate.terms → TermKind.isConstant name = true := by
  rcases mem_issues_cases h with hscheme | ⟨_, _, hshape⟩ | ⟨_, _, hunbound⟩
  · rcases mem_schemeIssues_cases hscheme with ⟨_, heq⟩ | ⟨_, _, heq⟩ <;> cases heq
  · exact absurd (place?_of_shapeIssue? hshape) nofun
  · obtain ⟨_, hmem, hvariable, heq⟩ := mem_unboundIssues.1 hunbound
    cases heq
    exact ⟨hmem, hvariable⟩

/-- The issues about facts, in the order of the facts. -/
theorem filter_issues_fact (program : Program) :
    (program.issues.filter fun issue => issue.place? == some .fact) =
      program.facts.filterMap (program.shapeIssue? .fact) := by
  have hnone (part : List Issue) (hpart : ∀ issue ∈ part, issue.place? ≠ some .fact) :
      (part.filter fun issue => issue.place? == some .fact) = [] :=
    List.filter_eq_nil_iff.2 fun issue hissue => by simpa using hpart issue hissue
  have hschemes := hnone (schemeIssues [] program.schemes) fun issue hissue => by
    rw [place?_of_mem_schemeIssues hissue]
    exact nofun
  have hrules := hnone (program.rules.flatMap program.ruleShapeIssues) fun issue hissue => by
    obtain ⟨rule, _, hmem⟩ := List.mem_flatMap.1 hissue
    rcases place?_of_mem_ruleShapeIssues hmem with hplace | hplace <;> rw [hplace] <;> exact nofun
  have hqueries := hnone (program.queries.filterMap (program.shapeIssue? .query))
    fun issue hissue => by
      obtain ⟨query, _, hshape⟩ := List.mem_filterMap.1 hissue
      rw [place?_of_shapeIssue? hshape]
      exact nofun
  have hbound := hnone (program.rules.flatMap unboundIssues) fun issue hissue => by
    obtain ⟨rule, _, hmem⟩ := List.mem_flatMap.1 hissue
    rw [place?_of_mem_unboundIssues hmem]
    exact nofun
  have hfacts : ((program.facts.filterMap (program.shapeIssue? .fact)).filter
      fun issue => issue.place? == some .fact) =
        program.facts.filterMap (program.shapeIssue? .fact) := by
    rw [List.filter_eq_self]
    intro issue hissue
    obtain ⟨fact, _, hshape⟩ := List.mem_filterMap.1 hissue
    rw [place?_of_shapeIssue? hshape]
    rfl
  simp only [issues, List.filter_append, hschemes, hfacts, hrules, hqueries, hbound,
    List.nil_append, List.append_nil]

end Places

end Program

namespace Database

section Judging

variable {db : Database} {program : Program}

/-- Loads facts in turn.  Each one is judged by the database that the earlier ones have left. -/
def loadInTurn (db : Database) : List Predicate → Database × List Event
  | [] => (db, [])
  | fact :: rest =>
      let (loaded, events) := (db.loadFact fact).loadInTurn rest
      (loaded, (db.factEvent? fact).toList ++ events)

/-- A fact that is loaded does not change the judgement of another one. -/
theorem factEvent?_loadFact
    (h : db.Keyed)
    (loaded fact : Predicate) :
    (db.loadFact loaded).factEvent? fact = db.factEvent? fact := by
  unfold factEvent?
  rw [relation?_loadFact h]
  cases db.relation? fact.name with
  | none => rfl
  | some r =>
      have harity : (if loaded.name = fact.name then r.insert loaded.terms else r).arity =
          r.arity := by
        split
        · exact congrArg List.length (Relation.schema_insert r loaded.terms)
        · rfl
      simp only [Option.map_some, harity]

theorem loadInTurn_eq
    (h : db.Sound)
    (facts : List Predicate) :
    db.loadInTurn facts = (facts.foldl loadFact db, facts.filterMap db.factEvent?) := by
  induction facts generalizing db with
  | nil => rfl
  | cons fact rest ih =>
      have hjudged : (db.loadFact fact).factEvent? = db.factEvent? :=
        funext (factEvent?_loadFact h.keyed fact)
      rw [loadInTurn, ih (h.loadFact fact), hjudged, List.foldl_cons, List.filterMap_cons]
      cases db.factEvent? fact <;> rfl

/-- The stored relation of a name has as many columns as the checks go by. -/
theorem arity_ofSchemes (program : Program) (name : String) :
    ((ofSchemes program.schemes).relation? name).map Relation.arity =
      program.declaredArity? name := by
  rw [relation?_ofSchemes, Option.map_map]
  rfl

end Judging

end Database

namespace Program

section Agreeing

/-- The event of a skipped fact and the issue of this fact tell the same. -/
inductive Reports : Event → Issue → Prop
  | undeclared (fact : Predicate) :
      Reports (.undeclaredFact fact.name) (.undeclaredRelation .fact fact)
  | arity (fact : Predicate) (expected : Nat) :
      Reports (.factArity fact.name expected fact.terms.length)
        (.arityMismatch .fact fact expected)

variable {program : Program}

/-- A fact is skipped exactly if it has an issue, for the reason that the issue gives. -/
theorem reports_factEvent? (program : Program) (fact : Predicate) :
    Option.Rel Reports ((Database.ofSchemes program.schemes).factEvent? fact)
      (program.shapeIssue? .fact fact) := by
  unfold Database.factEvent? shapeIssue?
  rw [← Database.arity_ofSchemes]
  cases (Database.ofSchemes program.schemes).relation? fact.name with
  | none => exact Option.Rel.some (Reports.undeclared fact)
  | some r =>
      simp only [Option.map_some]
      by_cases hlength : fact.terms.length = r.arity
      · rw [if_pos hlength, if_pos hlength.symm]
        exact Option.Rel.none
      · rw [if_neg hlength, if_neg (Ne.symm hlength)]
        exact Option.Rel.some (Reports.arity fact r.arity)

theorem forall₂_filterMap
    {α β γ : Type} {R : β → γ → Prop} {f : α → Option β} {g : α → Option γ}
    (h : ∀ a, Option.Rel R (f a) (g a))
    (l : List α) :
    List.Forall₂ R (l.filterMap f) (l.filterMap g) := by
  induction l with
  | nil => exact List.Forall₂.nil
  | cons a rest ih =>
      rw [List.filterMap_cons, List.filterMap_cons]
      have ha := h a
      cases hf : f a with
      | none =>
          rw [hf] at ha
          cases hg : g a with
          | none => exact ih
          | some c =>
              rw [hg] at ha
              cases ha
      | some b =>
          rw [hf] at ha
          cases hg : g a with
          | none =>
              rw [hg] at ha
              cases ha
          | some c =>
              rw [hg] at ha
              cases ha with
              | some hbc => exact List.Forall₂.cons hbc ih

/-- The scheme after which no other one declares its name is the last one of the name. -/
theorem scheme?_eq_some_of_split
    {earlier later : List Predicate} {scheme : Predicate}
    (hschemes : program.schemes = earlier ++ scheme :: later)
    (hlast : ∀ other ∈ later, other.name ≠ scheme.name) :
    program.scheme? scheme.name = some scheme := by
  have hlater : later.reverse.find? (fun other => other.name == scheme.name) = none := by
    rw [List.find?_eq_none]
    intro other hother
    simpa using hlast other (List.mem_reverse.1 hother)
  rw [scheme?, hschemes, List.reverse_append, List.reverse_cons, List.append_assoc,
    List.find?_append, hlater, Option.none_or, List.singleton_append, List.find?_cons,
    beq_self_eq_true]

theorem mem_factRows
    {facts : List Predicate} {name : String} {row : Row} :
    row ∈ factRows facts name ↔ ∃ fact ∈ facts, fact.name = name ∧ fact.terms = row := by
  simp [factRows, and_assoc]

/-- Loading and the checks agree, whatever is declared once, several times or not at all.  The
loaded names are the declared ones.  Each has the columns of the last scheme that declares it, and
as its rows the term lists of its facts that have that many terms.  Loading the facts in turn tells
of the skipped ones, and these events are, in their order, the issues that stand at a fact. -/
theorem loading_agrees_with_checks (program : Program) :
    let db := Database.ofProgram program
    (Database.ofSchemes program.schemes).loadInTurn program.facts =
        (db, Database.loadingEvents program) ∧
      (∀ name, (∃ r, db.relation? name = some r) ↔
        ∃ scheme ∈ program.schemes, scheme.name = name) ∧
      (∀ earlier scheme later, program.schemes = earlier ++ scheme :: later →
        (∀ other ∈ later, other.name ≠ scheme.name) →
        ∃ r, db.relation? scheme.name = some r ∧ r.name = scheme.name ∧
          r.schema = scheme.terms ∧
          ∀ row, row ∈ r.rows ↔
            row.length = scheme.terms.length ∧
              ∃ fact ∈ program.facts, fact.name = scheme.name ∧ fact.terms = row) ∧
      List.Forall₂ Reports (Database.loadingEvents program)
        (program.issues.filter fun issue => issue.place? == some .fact) := by
  intro db
  have hdeclared := Database.sound_ofSchemes program.schemes
  refine ⟨Database.loadInTurn_eq hdeclared program.facts, fun name => ?_, ?_, ?_⟩
  · rw [← Option.isSome_iff_exists, Database.relation?_ofProgram, Option.isSome_map, scheme?,
      List.find?_isSome]
    simp
  · intro earlier scheme later hschemes hlast
    have hrelation := Database.relation?_ofProgram program scheme.name
    rw [scheme?_eq_some_of_split hschemes hlast, Option.map_some] at hrelation
    refine ⟨_, hrelation, Relation.name_insertAll _ _, Relation.schema_insertAll _ _,
      fun row => ?_⟩
    rw [Relation.mem_insertAll, mem_factRows, and_comm]
    exact or_iff_right (OrderedSet.not_mem_empty row)
  · rw [filter_issues_fact]
    exact forall₂_filterMap (reports_factEvent? program) program.facts

/-- Two names that are declared several times in turns, a fact that fits an earlier scheme only, and
a fact of no scheme. -/
theorem conflicting_loading :
    let program : Program :=
      { schemes :=
          [⟨"P", ["a"]⟩, ⟨"Q", ["x"]⟩, ⟨"P", ["b"]⟩, ⟨"Q", ["x"]⟩, ⟨"P", ["c", "c"]⟩, ⟨"Q", ["y"]⟩]
        facts := [⟨"P", ["'1'", "'2'"]⟩, ⟨"P", ["'3'"]⟩, ⟨"U", ["'4'"]⟩, ⟨"P", ["'1'", "'2'"]⟩]
        rules := []
        queries := [] }
    let later : List Predicate := [⟨"Q", ["y"]⟩]
    let db := Database.ofProgram program
    (∀ other ∈ later, other.name ≠ "P") ∧
      (∃ r, db.relation? "P" = some r ∧ r.schema = ["c", "c"] ∧
        ∀ row, row ∈ r.rows ↔
          row.length = 2 ∧ ∃ fact ∈ program.facts, fact.name = "P" ∧ fact.terms = row) ∧
      Database.loadingEvents program = [.factArity "P" 2 1, .undeclaredFact "U"] ∧
      List.Forall₂ Reports [.factArity "P" 2 1, .undeclaredFact "U"]
        (program.issues.filter fun issue => issue.place? == some .fact) := by
  intro program later db
  obtain ⟨_, _, hrelation, hreports⟩ := loading_agrees_with_checks program
  have hevents : Database.loadingEvents program = [.factArity "P" 2 1, .undeclaredFact "U"] := by
    decide
  have hlast : ∀ other ∈ later, other.name ≠ "P" := by decide
  obtain ⟨r, hr, _, hschema, hrows⟩ := hrelation
    [⟨"P", ["a"]⟩, ⟨"Q", ["x"]⟩, ⟨"P", ["b"]⟩, ⟨"Q", ["x"]⟩] ⟨"P", ["c", "c"]⟩ later rfl hlast
  rw [hevents] at hreports
  exact ⟨hlast, ⟨r, hr, hschema, hrows⟩, hevents, hreports⟩

end Agreeing

end Program

end Issues

end Datalog
