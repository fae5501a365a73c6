import Datalog.Answer
import Datalog.Proofs.Algebra.Renaming
import Datalog.Proofs.Evaluation.Firing
import Datalog.Proofs.Evaluation.Interchange

/-!
# The names of variables

**Step.** A rule with renamed variables matches the same rows under renamed columns; they are
joined and projected alike.  Whether the result takes the schema of the head relation depends on the
number of its columns and on that schema, so the two rules derive the same relation or meet the same
obstacle.

**Results.** Firing a rule does not depend on the names of its variables, and neither do the number
of matches and the binding rows of a query.  The columns of the relations may be called like the
variables, and their names may repeat or be empty.
-/

namespace Datalog

section VariableNames

/-- The terms of the head and of the body. -/
def Rule.terms (rule : Rule) : List String :=
  rule.head.terms ++ rule.body.flatMap Predicate.terms

/-- The rule with its variables renamed, in the head and in the body alike. -/
def Rule.rename (σ : String → String) (rule : Rule) : Rule :=
  ⟨rule.head.rename σ, rule.body.map (Predicate.rename σ)⟩

theorem Rule.terms_subset_of_mem
    {rule : Rule} {predicate : Predicate}
    (h : predicate ∈ rule.body) :
    predicate.terms ⊆ rule.terms :=
  fun _ hterm => List.mem_append_right _ (List.mem_flatMap.2 ⟨predicate, h, hterm⟩)

namespace Relation

theorem ne_empty_of_mem_overlay
    {columns : Row}
    (h : ∀ column ∈ columns, column ≠ "")
    (names : Row) :
    ∀ column ∈ overlay columns names, column ≠ "" := by
  induction columns generalizing names with
  | nil => exact h
  | cons column rest ih =>
      obtain ⟨hcolumn, hrest⟩ := List.forall_mem_cons.1 h
      cases names with
      | nil => exact h
      | cons name names =>
          rw [overlay, List.forall_mem_cons]
          refine ⟨?_, ih hrest names⟩
          split
          · exact hcolumn
          · assumption

/-- Whether a renaming of the whole schema succeeds depends on the number of the columns and on the
new names alone. -/
theorem schema_renameSchema_eq_iff
    {r : Relation} {names : Row}
    (hnodup : r.schema.Nodup)
    (hcolumns : ∀ column ∈ r.schema, column ≠ "") :
    (r.renameSchema names).schema = names ↔
      names.length = r.schema.length ∧ (∀ name ∈ names, name ≠ "") ∧ names.Nodup := by
  constructor
  · intro h
    have hlength := length_schema_renameSchema r names
    have hdistinct := nodup_renameSchema hnodup names
    have hnames : ∀ name ∈ (r.renameSchema names).schema, name ≠ "" := by
      simp only [renameSchema]
      split
      · exact ne_empty_of_mem_overlay hcolumns names
      · exact hcolumns
    rw [h] at hlength hdistinct hnames
    exact ⟨hlength, hnames, hdistinct⟩
  · rintro ⟨hlength, hnames, hdistinct⟩
    exact schema_renameSchema hlength hnames hdistinct

end Relation

namespace Database

section Shape

variable {f : String → String} {scope : List String} {joined : Relation} {terms : List String}

/-- A join with renamed columns takes the shape of a head relation if the join does, and is the same
relation then. -/
theorem shape_mapColumns
    (hf : Set.InjOn f {a | a ∈ scope})
    (hjoined : joined.schema ⊆ scope)
    (hterms : terms ⊆ scope)
    (hcolumns : ∀ column ∈ joined.schema, column ≠ "" ∧ f column ≠ "")
    (head : Relation) :
    let derived := shape head terms joined
    let derived' := shape head (terms.map f) (joined.mapColumns f)
    (derived'.schema = head.schema ↔ derived.schema = head.schema) ∧
      (derived.schema = head.schema → derived' = derived) := by
  intro derived derived'
  have hproject := Relation.project_mapColumns hf hjoined hterms
  have hkept : (joined.project terms).schema ⊆ joined.schema :=
    fun column hcolumn => (Relation.mem_projectedSchema.1 hcolumn).2
  have hclean := Relation.clean_project joined terms
  have hclean' := Relation.Clean.mapColumns hf hclean (List.Subset.trans hkept hjoined)
  have hne : ∀ column ∈ (joined.project terms).schema, column ≠ "" :=
    fun column hcolumn => (hcolumns column (hkept hcolumn)).1
  have hne' : ∀ column ∈ ((joined.project terms).mapColumns f).schema, column ≠ "" := by
    intro column hcolumn
    obtain ⟨source, hsource, rfl⟩ := List.mem_map.1 hcolumn
    exact (hcolumns source (hkept hsource)).2
  have hiff : derived'.schema = head.schema ↔ derived.schema = head.schema := by
    change (((joined.mapColumns f).project (terms.map f)).renameSchema head.schema).schema = _ ↔
      ((joined.project terms).renameSchema head.schema).schema = _
    rw [hproject, Relation.schema_renameSchema_eq_iff hclean'.nodup hne',
      Relation.schema_renameSchema_eq_iff hclean.nodup hne]
    exact and_congr_left fun _ => by rw [Relation.mapColumns, List.length_map]
  refine ⟨hiff, fun hschema => Relation.eq_of_mem_iff rfl ((hiff.2 hschema).trans hschema.symm)
    fun row => ?_⟩
  change row ∈ (((joined.mapColumns f).project (terms.map f)).renameSchema head.schema).rows ↔
    row ∈ ((joined.project terms).renameSchema head.schema).rows
  rw [hproject, Relation.rows_renameSchema, Relation.rows_renameSchema]
  rfl

end Shape

section Deriving

variable {σ : String → String} {rule : Rule} {body : List Predicate}

theorem boundBody_rename
    (h : ∀ predicate ∈ body, Renames σ predicate.terms)
    (hterms : ∀ predicate ∈ body, ∀ term ∈ predicate.terms, term ≠ "")
    (db : Database) :
    db.boundBody (body.map (Predicate.rename σ)) =
      (db.boundBody body).map (Relation.mapColumns (termValue σ)) := by
  unfold boundBody
  rw [List.filterMap_map, List.map_filterMap]
  refine List.filterMap_congr fun predicate hpredicate => ?_
  change (db.relation? predicate.name).map _ = _
  rw [Option.map_map]
  refine congrArg (fun g => (db.relation? predicate.name).map g) (funext fun r => ?_)
  exact Matching.relation_rename (h predicate hpredicate) (hterms predicate hpredicate)

/-- The columns of the matches are terms of the rule. -/
theorem schema_subset_of_mem_boundBody
    (hterms : ∀ term ∈ rule.terms, term ≠ "")
    {db : Database} {b : Relation}
    (hb : b ∈ db.boundBody rule.body) :
    b.schema ⊆ rule.terms := by
  obtain ⟨predicate, hpredicate, r, _, rfl⟩ := mem_boundBody.1 hb
  have hsubset := Rule.terms_subset_of_mem hpredicate
  intro column hcolumn
  have hname := Matching.schema_bind_subset (fun term hterm => hterms term (hsubset hterm)) hcolumn
  exact hsubset (Matching.mem_variableNames.1 hname).1

theorem schema_joined_subset
    (hterms : ∀ term ∈ rule.terms, term ≠ "")
    {db : Database} {first : Relation} {rest : List Relation}
    (hbody : db.boundBody rule.body = first :: rest) :
    (rest.foldl Relation.join first).schema ⊆ rule.terms := by
  intro column hcolumn
  obtain ⟨b, hb, hin⟩ := ((joined_boundBody hbody).2.1 column).1 hcolumn
  exact schema_subset_of_mem_boundBody hterms hb hin

/-- A rule derives the same whatever its variables are called. -/
theorem derive_rename
    (h : Renames σ rule.terms)
    (hterms : ∀ term ∈ rule.terms, term ≠ "")
    (db : Database) :
    db.derive (rule.rename σ) = db.derive rule := by
  have hbody := boundBody_rename
    (fun predicate hpredicate => h.mono (Rule.terms_subset_of_mem hpredicate))
    (fun predicate hpredicate term hterm =>
      hterms term (Rule.terms_subset_of_mem hpredicate hterm)) db
  have hscope : ∀ b ∈ db.boundBody rule.body, b.schema ⊆ rule.terms :=
    fun b hb => schema_subset_of_mem_boundBody hterms hb
  have hclean := db.clean_boundBody rule.body
  unfold derive
  simp only [Rule.rename, Predicate.name_rename, hbody]
  cases db.relation? rule.head.name with
  | none => rfl
  | some head =>
      simp only
      cases hbound : db.boundBody rule.body with
      | nil => rfl
      | cons first rest =>
          rw [hbound] at hscope hclean
          have hjoined := schema_joined_subset hterms hbound
          have hcolumns : ∀ column ∈ (rest.foldl Relation.join first).schema,
              column ≠ "" ∧ termValue σ column ≠ "" := by
            intro column hcolumn
            have hterm := hjoined hcolumn
            exact ⟨hterms column hterm, h.termValue_ne_empty hterm (hterms column hterm)⟩
          obtain ⟨hiff, heq⟩ := shape_mapColumns h.injOn_termValue hjoined
            (List.subset_append_left _ _) hcolumns head
          rw [← Relation.foldl_join_mapColumns h.injOn_termValue hclean hscope] at hiff heq
          simp only [List.map_cons]
          by_cases hschema :
              (shape head rule.head.terms (rest.foldl Relation.join first)).schema = head.schema
          · rw [if_pos hschema, ← heq hschema]
            exact if_pos (hiff.2 hschema)
          · rw [if_neg hschema]
            exact if_neg fun hschema' => hschema (hiff.1 hschema')

end Deriving

end Database

theorem Renames.derivesLike
    {σ : String → String} {rule : Rule}
    (h : Renames σ rule.terms)
    (hterms : ∀ term ∈ rule.terms, term ≠ "") :
    (rule.rename σ).DerivesLike rule :=
  ⟨rfl, Database.derive_rename h hterms⟩

namespace Database

section Queries

variable {σ : String → String} {query : Predicate} {db : Database} {r : Relation}

theorem matched_answer_rename
    (h : Renames σ query.terms) :
    (db.answer (query.rename σ)).matched = (db.answer query).matched := by
  unfold answer
  rw [Predicate.name_rename]
  cases db.relation? query.name with
  | none => rfl
  | some r => exact Matching.matched_rename h

theorem bindings_answer
    (hr : db.relation? query.name = some r) :
    (db.answer query).bindings = (Matching.bind r query).relation.renderedRows := by
  rw [answer, hr]

theorem bindings_answer_none
    (hr : db.relation? query.name = none) :
    (db.answer query).bindings = [] := by
  rw [answer, hr]

/-- A renamed query binds the same values in the same order, under renamed columns. -/
theorem bindings_answer_rename
    (h : Renames σ query.terms)
    (hterms : ∀ term ∈ query.terms, term ≠ "")
    (hr : db.relation? query.name = some r) :
    let found := (Matching.bind r query).relation
    (db.answer (query.rename σ)).bindings =
      found.rows.toList.map (Row.render (found.schema.map σ)) := by
  intro found
  have hcolumns : found.schema.map (termValue σ) = found.schema.map σ := by
    refine List.map_congr_left fun column hcolumn => ?_
    have hname := Matching.schema_bind_subset hterms hcolumn
    exact termValue_of_not_isConstant (Matching.mem_variableNames.1 hname).2.1
  have hrenamed : (db.answer (query.rename σ)).bindings =
      (Matching.bind r (query.rename σ)).relation.renderedRows := bindings_answer hr
  rw [hrenamed, Matching.relation_rename h hterms, ← hcolumns]
  rfl

end Queries

end Database

namespace Session

/-- The names of variables do not matter, whatever the columns of the relations are called.  If no
term of a rule is empty and its variables keep different names, in the head and in the body alike,
then firing it leaves the same session and traces the same rows.  A query that is renamed likewise
has the same number of matches, and its bindings are the same rows in the same order under renamed
columns. -/
theorem ignores_variable_names (s : Session) (σ : String → String) :
    (∀ rule : Rule, (∀ term ∈ rule.terms, term ≠ "") → Renames σ rule.terms →
      (s.fire (rule.rename σ)).session = (s.fire rule).session ∧
        (s.fire (rule.rename σ)).trace.derived = (s.fire rule).trace.derived) ∧
      ∀ query : Predicate, (∀ term ∈ query.terms, term ≠ "") → Renames σ query.terms →
        let answer := s.database.answer query
        let answer' := s.database.answer (query.rename σ)
        answer'.matched = answer.matched ∧
          (s.database.relation? query.name = none →
            answer.bindings = [] ∧ answer'.bindings = []) ∧
          ∀ r, s.database.relation? query.name = some r →
            let found := (Matching.bind r query).relation
            answer.bindings = found.rows.toList.map (Row.render found.schema) ∧
              answer'.bindings = found.rows.toList.map (Row.render (found.schema.map σ)) := by
  refine ⟨fun rule hterms h => ?_, fun query hterms h => ⟨?_, fun hr => ?_, fun r hr => ?_⟩⟩
  · obtain ⟨hsession, htrace⟩ := fire_congr (h.derivesLike hterms) s
    have hderived := congrArg RuleTrace.derived htrace
    exact ⟨hsession, hderived⟩
  · exact Database.matched_answer_rename h
  · have hrenamed : s.database.relation? (query.rename σ).name = none := hr
    exact ⟨Database.bindings_answer_none hr, Database.bindings_answer_none hrenamed⟩
  · exact ⟨Database.bindings_answer hr, Database.bindings_answer_rename h hterms hr⟩

/-- The variables are called like columns of both relations and change places.  One relation has two
columns of the same name, so the query binds one of its two variables only. -/
theorem ignores_swapped_names :
    let r := ((Relation.empty "R" ["x", "y", "x"]).insert ["'1'", "'2'", "'1'"]).insert
      ["'3'", "'4'", "'5'"]
    let s := ofDatabase ((Database.empty.store r).store (Relation.empty "H" ["y", "x"]))
    let σ : String → String := fun term =>
      if term = "x" then "y" else if term = "y" then "x" else term
    let rule : Rule := ⟨⟨"H", ["x", "y"]⟩, [⟨"R", ["y", "x", "y"]⟩]⟩
    let query : Predicate := ⟨"R", ["x", "'2'", "y"]⟩
    rule.rename σ = ⟨⟨"H", ["y", "x"]⟩, [⟨"R", ["x", "y", "x"]⟩]⟩ ∧
      (s.fire (rule.rename σ)).session = (s.fire rule).session ∧
      (s.fire (rule.rename σ)).trace.derived = ["y='2', x='1'"] ∧
      (s.database.answer (query.rename σ)).matched = (s.database.answer query).matched ∧
      (s.database.answer query).bindings = ["x='1'"] ∧
      (s.database.answer (query.rename σ)).bindings = ["y='1'"] := by
  intro r s σ rule query
  have hinvolutive : Function.Involutive σ := by
    intro term
    by_cases hx : term = "x" <;> by_cases hy : term = "y" <;> simp [σ, hx, hy]
  have hrule : Renames σ rule.terms :=
    ⟨by decide, by decide, hinvolutive.injective.injOn⟩
  have hquery : Renames σ query.terms :=
    ⟨by decide, by decide, hinvolutive.injective.injOn⟩
  have hr : s.database.relation? "R" = some r := by decide
  obtain ⟨hfire, hanswer⟩ := ignores_variable_names s σ
  obtain ⟨hsession, hderived⟩ := hfire rule (by decide) hrule
  obtain ⟨hmatched, _, hbindings⟩ := hanswer query (by decide) hquery
  obtain ⟨hfound, hfound'⟩ := hbindings r hr
  have hvalues : (s.fire rule).trace.derived = ["y='2', x='1'"] := by
    unfold fire Database.derive Database.boundBody Matching.bind Matching.select
      Matching.firstColumns Matching.constants Matching.repetitions Matching.variableNames
    simp only [TermKind.isConstant_eq]
    cbv
  exact ⟨by decide, hsession, hderived.trans hvalues, hmatched, hfound.trans (by decide +kernel),
    hfound'.trans (by decide +kernel)⟩

end Session

end VariableNames

end Datalog
