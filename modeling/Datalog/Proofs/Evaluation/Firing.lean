import Datalog.Proofs.Algebra.Answering
import Datalog.Proofs.Evaluation.Consequence

/-!
# Firing a rule by valuations

**Body.** A body predicate of a declared relation is resolved; the others are skipped.  A term
stands for a variable if it is no constant and has a column in a resolved predicate.  A valuation
satisfies the body if each resolved predicate has a row that fits it.

**Head.** The variables among the head terms, each once, make a row of the head relation if there
are as many of them as columns.

**Results.** Where the numbers fit and each resolved predicate has a variable, firing adds the
values of the head variables under the valuations that satisfy the body.  In every other case it
changes nothing.
-/

namespace Datalog

section Firing

namespace Database

/-- A term is a variable of a resolved predicate. -/
def Binds (db : Database) (body : List Predicate) (term : String) : Prop :=
  ∃ predicate ∈ body, ∃ r, db.relation? predicate.name = some r ∧
    Matching.IsVisible r.arity predicate.terms term

/-- Each resolved predicate has a row with its constants and with the values of its variables. -/
def Satisfies (db : Database) (body : List Predicate) (v : String → String) : Prop :=
  ∀ predicate ∈ body, ∀ r, db.relation? predicate.name = some r →
    ∃ row ∈ r.rows, Matching.Fits v predicate.terms row

/-- Some body predicate is resolved, and each resolved one has a variable. -/
structure Resolves (db : Database) (body : List Predicate) : Prop where
  exists_relation : ∃ predicate ∈ body, ∃ r, db.relation? predicate.name = some r
  exists_variable : ∀ predicate ∈ body, ∀ r, db.relation? predicate.name = some r →
    ∃ term, Matching.IsVisible r.arity predicate.terms term

section Predicates

variable {db : Database} {predicate : Predicate} {body : List Predicate} {r : Relation}
variable {term : String} {v : String → String}

theorem not_binds_nil :
    ¬ db.Binds [] term := by
  rintro ⟨predicate, hpredicate, _⟩
  cases hpredicate

/-- A body binds what its first predicate binds, if that is resolved, and what the others bind. -/
theorem binds_cons_of_some
    (h : db.relation? predicate.name = some r) :
    db.Binds (predicate :: body) term ↔
      Matching.IsVisible r.arity predicate.terms term ∨ db.Binds body term := by
  simp [Binds, h]

theorem binds_cons_of_none
    (h : db.relation? predicate.name = none) :
    db.Binds (predicate :: body) term ↔ db.Binds body term := by
  simp [Binds, h]

theorem satisfies_nil (db : Database) (v : String → String) :
    db.Satisfies [] v := by
  intro predicate hpredicate
  cases hpredicate

/-- A valuation satisfies a body if some row fits its first predicate, if that is resolved, and it
satisfies the others. -/
theorem satisfies_cons_of_some
    (h : db.relation? predicate.name = some r) :
    db.Satisfies (predicate :: body) v ↔
      (∃ row ∈ r.rows, Matching.Fits v predicate.terms row) ∧ db.Satisfies body v := by
  simp [Satisfies, h]

theorem satisfies_cons_of_none
    (h : db.relation? predicate.name = none) :
    db.Satisfies (predicate :: body) v ↔ db.Satisfies body v := by
  simp [Satisfies, h]

end Predicates

section Body

variable {db : Database} {body : List Predicate}

theorem mem_boundBody
    {b : Relation} :
    b ∈ db.boundBody body ↔
      ∃ predicate ∈ body, ∃ r, db.relation? predicate.name = some r ∧
        b = (Matching.bind r predicate).relation := by
  unfold boundBody
  rw [List.mem_filterMap]
  refine exists_congr fun predicate => and_congr_right fun _ => ?_
  rw [Option.map_eq_some_iff]
  exact exists_congr fun r => and_congr_right fun _ => eq_comm

theorem clean_boundBody (db : Database) (body : List Predicate) :
    ∀ b ∈ db.boundBody body, b.Clean := by
  intro b hb
  obtain ⟨predicate, _, r, _, rfl⟩ := mem_boundBody.1 hb
  exact Matching.clean_bind r predicate

theorem boundBody_ne_nil_iff :
    db.boundBody body ≠ [] ↔ ∃ predicate ∈ body, ∃ r, db.relation? predicate.name = some r := by
  constructor
  · intro h
    obtain ⟨b, hb⟩ := List.exists_mem_of_ne_nil _ h
    obtain ⟨predicate, hpredicate, r, hr, _⟩ := mem_boundBody.1 hb
    exact ⟨predicate, hpredicate, r, hr⟩
  · rintro ⟨predicate, hpredicate, r, hr⟩
    exact List.ne_nil_of_mem (mem_boundBody.2 ⟨predicate, hpredicate, r, hr, rfl⟩)

/-- The joined matches have the columns of the matches and admit the valuations that all of them
admit. -/
theorem joined_boundBody
    {first : Relation} {rest : List Relation}
    (hbody : db.boundBody body = first :: rest) :
    (rest.foldl Relation.join first).Clean ∧
      (∀ column, column ∈ (rest.foldl Relation.join first).schema ↔
        ∃ b ∈ db.boundBody body, column ∈ b.schema) ∧
      ∀ v, (rest.foldl Relation.join first).Admits v ↔ ∀ b ∈ db.boundBody body, b.Admits v := by
  have hclean := db.clean_boundBody body
  rw [hbody] at hclean ⊢
  exact Relation.foldl_join (hclean first List.mem_cons_self)
    fun r hr => hclean r (List.mem_cons_of_mem _ hr)

/-- The projection keeps the head terms that are columns of the matches. -/
theorem firstOccurrences_projected
    {first : Relation} {rest : List Relation}
    (hbody : db.boundBody body = first :: rest)
    (terms : List String) :
    FirstOccurrences terms (fun term => ∃ b ∈ db.boundBody body, term ∈ b.schema)
      (Relation.projectedSchema (rest.foldl Relation.join first).schema terms) :=
  (firstOccurrences_filter _ _).congr fun name => by
    rw [List.contains_iff_mem, (joined_boundBody hbody).2.1]

variable (hclean : ∀ name r, db.relation? name = some r → r.Clean)
variable (hterms : ∀ predicate ∈ body, ∀ term ∈ predicate.terms, term ≠ "")

include hclean hterms

/-- The columns of the matches are the variables of the body. -/
theorem exists_column_iff_binds
    {term : String} :
    (∃ b ∈ db.boundBody body, term ∈ b.schema) ↔ db.Binds body term := by
  constructor
  · rintro ⟨b, hb, hterm⟩
    obtain ⟨predicate, hpredicate, r, hr, rfl⟩ := mem_boundBody.1 hb
    rw [Matching.schema_bind (hclean _ r hr) (hterms predicate hpredicate),
      ← Matching.isVisible_iff] at hterm
    exact ⟨predicate, hpredicate, r, hr, hterm⟩
  · rintro ⟨predicate, hpredicate, r, hr, hvisible⟩
    refine ⟨_, mem_boundBody.2 ⟨predicate, hpredicate, r, hr, rfl⟩, ?_⟩
    rw [Matching.schema_bind (hclean _ r hr) (hterms predicate hpredicate),
      ← Matching.isVisible_iff]
    exact hvisible

/-- The matches admit the valuations that satisfy the body, if each resolved predicate has a
variable, and otherwise none. -/
theorem admits_boundBody_iff
    {v : String → String} :
    (∀ b ∈ db.boundBody body, b.Admits v) ↔
      (∀ predicate ∈ body, ∀ r, db.relation? predicate.name = some r →
        ∃ term, Matching.IsVisible r.arity predicate.terms term) ∧
      db.Satisfies body v := by
  have hbind (predicate : Predicate) (hpredicate : predicate ∈ body) (r : Relation)
      (hr : db.relation? predicate.name = some r) :
      (Matching.bind r predicate).relation.Admits v ↔
        (∃ term, Matching.IsVisible r.arity predicate.terms term) ∧
          ∃ row ∈ r.rows, Matching.Fits v predicate.terms row := by
    rw [Matching.admits_bind (hclean _ r hr) (hterms predicate hpredicate),
      Matching.variableNames_ne_nil_iff]
  constructor
  · intro h
    have hall (predicate : Predicate) (hpredicate : predicate ∈ body) (r : Relation)
        (hr : db.relation? predicate.name = some r) :=
      (hbind predicate hpredicate r hr).1
        (h _ (mem_boundBody.2 ⟨predicate, hpredicate, r, hr, rfl⟩))
    exact ⟨fun predicate hpredicate r hr => (hall predicate hpredicate r hr).1,
      fun predicate hpredicate r hr => (hall predicate hpredicate r hr).2⟩
  · rintro ⟨hvariable, hsatisfies⟩ b hb
    obtain ⟨predicate, hpredicate, r, hr, rfl⟩ := mem_boundBody.1 hb
    exact (hbind predicate hpredicate r hr).2
      ⟨hvariable predicate hpredicate r hr, hsatisfies predicate hpredicate r hr⟩

end Body

section Deriving

variable {db : Database} {rule : Rule} {head first : Relation} {rest : List Relation}

/-- Where the head terms that are columns of the matches are as many as the head relation has
columns, the rule derives their values under the valuations that all matches admit. -/
theorem exists_derived_of_length
    (hhead : db.relation? rule.head.name = some head)
    (hnodup : head.schema.Nodup)
    (hcolumns : ∀ column ∈ head.schema, column ≠ "")
    (hne : head.schema ≠ [])
    (hbody : db.boundBody rule.body = first :: rest)
    (hlength : (Relation.projectedSchema (rest.foldl Relation.join first).schema
      rule.head.terms).length = head.arity) :
    ∃ derived, db.derive rule = .ok derived ∧
      ∀ row, row ∈ derived.rows ↔
        ∃ v, (∀ b ∈ db.boundBody rule.body, b.Admits v) ∧
          row = (Relation.projectedSchema (rest.foldl Relation.join first).schema
            rule.head.terms).map v := by
  obtain ⟨hjoined, _, hadmits⟩ := joined_boundBody hbody
  have hshape :
      (shape head rule.head.terms (rest.foldl Relation.join first)).schema = head.schema :=
    Relation.schema_renameSchema hlength.symm hcolumns hnodup
  refine ⟨_, derive_eq_ok_iff.2 ⟨head, first, rest, hhead, hbody, rfl, hshape⟩, fun row => ?_⟩
  change row ∈ (((rest.foldl Relation.join first).project rule.head.terms).renameSchema
    head.schema).rows ↔ _
  have hnames : Relation.projectedSchema (rest.foldl Relation.join first).schema
      rule.head.terms ≠ [] := by
    rintro hnil
    rw [hnil] at hlength
    exact hne (List.length_eq_zero_iff.1 hlength.symm)
  rw [Relation.rows_renameSchema, hjoined.mem_project_iff]
  simp only [ne_eq, hnames, not_false_eq_true, true_and, hadmits]

/-- Where they are fewer or more, the rule does not fit its head relation. -/
theorem derive_of_length_ne
    (hhead : db.relation? rule.head.name = some head)
    (hbody : db.boundBody rule.body = first :: rest)
    (hlength : (Relation.projectedSchema (rest.foldl Relation.join first).schema
      rule.head.terms).length ≠ head.arity) :
    db.derive rule = .error .incompatibleHead := by
  have hschema :
      (shape head rule.head.terms (rest.foldl Relation.join first)).schema ≠ head.schema := by
    intro heq
    exact hlength ((Relation.length_schema_renameSchema _ head.schema).symm.trans
      (congrArg List.length heq))
  unfold derive
  simp only [hhead, hbody]
  exact if_neg hschema

/-- A rule that derives no row has no consequence. -/
theorem consequence_eq_of_no_rows
    (h : db.Keyed)
    (hrows : ∀ derived, db.derive rule = .ok derived → ∀ row, row ∉ derived.rows) :
    db.consequence rule = db :=
  (closedUnder_iff h).1 fun derived _ hderive _ row hrow => absurd hrow (hrows derived hderive row)

end Deriving

end Database

namespace Session

open Database

/-- Firing a rule on any database with different column names, where no body term is empty and the
head relation has columns, all with a name.  The head variables are the head terms that are
variables of the body, each once.  If some body predicate is resolved, each resolved one has a
variable, and there are as many head variables as columns, then the head relation gets their values
under all valuations that satisfy the body, and nothing else changes.  Otherwise nothing at all
changes. -/
theorem fire_by_valuations
    (s : Session) (rule : Rule)
    (hsound : s.database.Sound)
    (hnodup : ∀ name r, s.database.relation? name = some r → r.schema.Nodup)
    (hterms : ∀ predicate ∈ rule.body, ∀ term ∈ predicate.terms, term ≠ "")
    {head : Relation}
    (hhead : s.database.relation? rule.head.name = some head)
    (hcolumns : ∀ column ∈ head.schema, column ≠ "")
    (hne : head.schema ≠ []) :
    ∃ names, FirstOccurrences rule.head.terms (s.database.Binds rule.body) names ∧
      let fired := (s.fire rule).session.database
      (s.database.Resolves rule.body ∧ names.length = head.arity →
        ∃ grown, fired = s.database.store grown ∧ grown.name = rule.head.name ∧
          grown.schema = head.schema ∧
          ∀ row, row ∈ grown.rows ↔
            row ∈ head.rows ∨ ∃ v, s.database.Satisfies rule.body v ∧ row = names.map v) ∧
      (¬ (s.database.Resolves rule.body ∧ names.length = head.arity) → fired = s.database) := by
  have hclean : ∀ name r, s.database.relation? name = some r → r.Clean :=
    fun name r hr => ⟨hnodup name r hr, hsound.wellFormed name r hr⟩
  simp only [database_fire]
  cases hbody : s.database.boundBody rule.body with
  | nil =>
      have hunresolved : ¬ ∃ predicate ∈ rule.body, ∃ r,
          s.database.relation? predicate.name = some r :=
        fun h => boundBody_ne_nil_iff.2 h hbody
      refine ⟨[], ⟨fun name => ?_, List.Pairwise.nil⟩, fun h => ?_, fun _ => ?_⟩
      · refine ⟨fun h => absurd h List.not_mem_nil, ?_⟩
        rintro ⟨_, predicate, hpredicate, r, hr, _⟩
        exact absurd ⟨predicate, hpredicate, r, hr⟩ hunresolved
      · exact absurd h.1.exists_relation hunresolved
      · refine consequence_eq_of_no_rows hsound.keyed fun derived hderive => ?_
        obtain ⟨_, _, _, _, hcons, _⟩ := derive_eq_ok_iff.1 hderive
        rw [hbody] at hcons
        cases hcons
  | cons first rest =>
      have hadmits (v : String → String) := admits_boundBody_iff hclean hterms (v := v)
      refine ⟨Relation.projectedSchema (rest.foldl Relation.join first).schema rule.head.terms,
        ?_, ?_, ?_⟩
      · exact (firstOccurrences_projected hbody _).congr fun name =>
          exists_column_iff_binds hclean hterms
      · rintro ⟨hresolves, hlength⟩
        obtain ⟨derived, hderive, hrows⟩ :=
          exists_derived_of_length hhead (hnodup _ head hhead) hcolumns hne hbody hlength
        have hschema := schema_eq_of_derive hhead hderive
        refine ⟨head.union derived, ?_, hsound.keyed.name_union hhead derived,
          Relation.schema_union head derived, fun row => ?_⟩
        · rw [consequence, hderive, hhead]
        · have hsatisfies (v : String → String) :=
            (hadmits v).trans (and_iff_right hresolves.exists_variable)
          rw [Relation.mem_union hschema, hrows]
          simp only [hsatisfies]
      · intro hnot
        refine consequence_eq_of_no_rows hsound.keyed fun derived hderive row hrow => ?_
        by_cases hlength : (Relation.projectedSchema (rest.foldl Relation.join first).schema
            rule.head.terms).length = head.arity
        · -- Some resolved predicate has no variable, and its match has no row.
          obtain ⟨derived', hderive', hrows⟩ :=
            exists_derived_of_length hhead (hnodup _ head hhead) hcolumns hne hbody hlength
          rw [hderive] at hderive'
          cases hderive'
          obtain ⟨v, hv, _⟩ := (hrows row).1 hrow
          refine hnot ⟨⟨boundBody_ne_nil_iff.1 ?_, ((hadmits v).1 hv).1⟩, hlength⟩
          exact hbody ▸ List.cons_ne_nil first rest
        · rw [derive_of_length_ne hhead hbody hlength] at hderive
          cases hderive

/-- A body with a predicate of too few terms, one of too many, and one of an undeclared relation,
and a head with an unbound term and a repeated one. -/
theorem fire_by_valuations_skipping :
    let head := (Relation.empty "H" ["x", "y"]).insert ["'1'", "'1'"]
    let pairs := (Relation.empty "R" ["y", "x", "z"]).insert ["'1'", "'2'", "'3'"]
    let db := (Database.empty.store head).store pairs
    let rule : Rule :=
      ⟨⟨"H", ["y", "w", "x", "y"]⟩,
        [⟨"R", ["x", "y"]⟩, ⟨"U", ["w"]⟩, ⟨"H", ["x", "'1'", "y"]⟩]⟩
    let s := Session.ofDatabase db
    db.Sound ∧ (∀ name r, db.relation? name = some r → r.schema.Nodup) ∧
      (∀ predicate ∈ rule.body, ∀ term ∈ predicate.terms, term ≠ "") ∧
      db.relation? "H" = some head ∧ (∀ column ∈ head.schema, column ≠ "") ∧
      head.schema ≠ [] ∧ db.Resolves rule.body ∧
      FirstOccurrences rule.head.terms (db.Binds rule.body) ["y", "x"] ∧
      ∃ grown, (s.fire rule).session.database = db.store grown ∧ grown.name = "H" ∧
        grown.schema = ["x", "y"] ∧
        ∀ row, row ∈ grown.rows ↔ row = ["'1'", "'1'"] ∨ row = ["'2'", "'1'"] := by
  intro head pairs db rule s
  have hpairs : db.relation? "R" = some pairs := by
    rw [relation?_store, if_pos (by decide)]
  have hnone : db.relation? "U" = none := by
    rw [relation?_store, if_neg (by decide), relation?_store, if_neg (by decide), relation?_empty]
  have hhead : db.relation? "H" = some head := by
    rw [relation?_store, if_neg (by decide), relation?_store, if_pos (by decide)]
  have hsound : db.Sound :=
    (sound_empty.store ((Relation.wellFormed_empty _ _).insert _)).store
      ((Relation.wellFormed_empty _ _).insert _)
  have hnodup : ∀ name r, db.relation? name = some r → r.schema.Nodup := by
    intro name r hr
    rw [relation?_store, relation?_store, relation?_empty] at hr
    split at hr
    · cases hr
      decide
    · split at hr
      · cases hr
        decide
      · cases hr
  have hterms : ∀ predicate ∈ rule.body, ∀ term ∈ predicate.terms, term ≠ "" := by decide
  have hcolumns : ∀ column ∈ head.schema, column ≠ "" := by decide
  have hne : head.schema ≠ [] := by decide
  -- What the two resolved predicates bind, and the rows that fit them.
  have hvisible (term : String) :
      Matching.IsVisible pairs.arity ["x", "y"] term ↔ term = "x" ∨ term = "y" := by
    rw [Matching.isVisible_iff,
      show Matching.variableNames pairs.arity ["x", "y"] = ["x", "y"] by decide]
    simp
  have hvisibleHead (term : String) :
      Matching.IsVisible head.arity ["x", "'1'", "y"] term ↔ term = "x" := by
    rw [Matching.isVisible_iff,
      show Matching.variableNames head.arity ["x", "'1'", "y"] = ["x"] by decide]
    simp
  have hrow (row : Row) : row ∈ pairs.rows ↔ row = ["'1'", "'2'", "'3'"] := by
    rw [← OrderedSet.mem_toList, show pairs.rows.toList = [["'1'", "'2'", "'3'"]] by decide,
      List.mem_singleton]
  have hrowHead (row : Row) : row ∈ head.rows ↔ row = ["'1'", "'1'"] := by
    rw [← OrderedSet.mem_toList, show head.rows.toList = [["'1'", "'1'"]] by decide,
      List.mem_singleton]
  have hresolves : db.Resolves rule.body := by
    refine ⟨⟨_, List.mem_cons_self, pairs, hpairs⟩, ?_⟩
    simp only [rule, List.forall_mem_cons, hpairs, hhead, Option.some.injEq, forall_eq']
    refine ⟨⟨"x", (hvisible "x").2 (.inl rfl)⟩, ?_, ⟨"x", (hvisibleHead "x").2 rfl⟩, ?_⟩
    · intro r hr
      cases hnone.symm.trans hr
    · intro predicate hpredicate
      cases hpredicate
  have hbinds (term : String) : db.Binds rule.body term ↔ term = "x" ∨ term = "y" := by
    rw [binds_cons_of_some hpairs, binds_cons_of_none hnone, binds_cons_of_some hhead, hvisible,
      hvisibleHead, or_iff_left not_binds_nil]
    exact or_iff_left_of_imp .inl
  have hnames : FirstOccurrences rule.head.terms (db.Binds rule.body) ["y", "x"] := by
    refine ⟨fun name => ?_, by decide⟩
    rw [hbinds]
    simp only [rule, List.mem_cons, List.not_mem_nil, or_false]
    tauto
  have hsatisfies (v : String → String) :
      db.Satisfies rule.body v ↔ v "x" = "'1'" ∧ v "y" = "'2'" := by
    rw [satisfies_cons_of_some hpairs, satisfies_cons_of_none hnone, satisfies_cons_of_some hhead,
      and_iff_left (satisfies_nil _ _)]
    have hx : termValue v "x" = v "x" := termValue_of_not_isConstant (by decide)
    have hy : termValue v "y" = v "y" := termValue_of_not_isConstant (by decide)
    have hconstant : termValue v "'1'" = "'1'" := termValue_of_isConstant (by decide)
    simp only [hrow, hrowHead, exists_eq_left, Matching.fits_cons_iff, Matching.fits_nil,
      Matching.fits_nil_row, hx, hy, hconstant, and_true]
    exact ⟨fun h => ⟨h.1.1.symm, h.1.2.symm⟩, fun h => ⟨⟨h.1.symm, h.2.symm⟩, h.1.symm⟩⟩
  obtain ⟨names, hnames', hgrown, _⟩ :=
    fire_by_valuations s rule hsound hnodup hterms hhead hcolumns hne
  cases hnames'.unique hnames
  obtain ⟨grown, hfired, hname, hschema, hrows⟩ := hgrown ⟨hresolves, rfl⟩
  refine ⟨hsound, hnodup, hterms, hhead, hcolumns, hne, hresolves, hnames, grown, hfired, hname,
    hschema, fun row => ?_⟩
  rw [hrows, hrowHead]
  refine or_congr_right ?_
  constructor
  · rintro ⟨v, hv, rfl⟩
    obtain ⟨hx, hy⟩ := (hsatisfies v).1 hv
    rw [List.map_cons, List.map_cons, hx, hy, List.map_nil]
  · rintro rfl
    exact ⟨fun name => if name = "x" then "'1'" else "'2'", (hsatisfies _).2 (by decide), rfl⟩

end Session

end Firing

end Datalog
