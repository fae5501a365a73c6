import Datalog.Proofs.Evaluation.LeastModel

/-!
# What the evaluation of a program does not depend on

**Order.** Programs that differ in the order of their facts and of their rules have the same models,
hence the same least one.

**Relevance.** `ReadsWithin` says of a set of relation names that the rules deriving these relations
read no others, and `within` deletes the rules and facts of all other relations.  The least model of
the smaller program lies below the one of the whole program.  Put into the latter in place of the
relations of the set, it leaves a model of the whole program.

**Results.** The evaluation gives the same database and the same answers for every order of the
facts and the rules.  The relations of the set come out the same with and without the other rules
and facts, and so do the answers to queries of them.
-/

namespace Datalog

section Independence

namespace Relation

variable {r : Relation} {rows rows' : List Row}

theorem insertAll_congr
    (h : ∀ row, row ∈ rows ↔ row ∈ rows') :
    r.insertAll rows = r.insertAll rows' := by
  refine eq_of_mem_iff ?_ ?_ fun row => ?_
  · rw [name_insertAll, name_insertAll]
  · rw [schema_insertAll, schema_insertAll]
  · rw [mem_insertAll, mem_insertAll, h row]

theorem le_insertAll (r : Relation) (rows : List Row) :
    r ≤ r.insertAll rows := by
  refine ⟨(name_insertAll r rows).symm, (schema_insertAll r rows).symm, ?_⟩
  exact fun row hrow => mem_insertAll.2 (Or.inl hrow)

end Relation

namespace Program

section Order

variable {program : Program} {facts : List Predicate} {rules : List Rule}

theorem ofProgram_of_perm
    (hfacts : facts.Perm program.facts) :
    Database.ofProgram { program with facts := facts, rules := rules } =
      Database.ofProgram program := by
  refine Database.eq_of_relation? fun name => ?_
  have hrows (row : Row) : row ∈ factRows facts name ↔ row ∈ factRows program.facts name :=
    ((hfacts.filter _).map _).mem_iff
  rw [Database.relation?_ofProgram, Database.relation?_ofProgram]
  exact Option.map_congr fun scheme _ => Relation.insertAll_congr hrows

theorem models_of_perm
    (hfacts : facts.Perm program.facts)
    (hrules : rules.Perm program.rules) :
    { program with facts := facts, rules := rules }.models = program.models := by
  ext db
  have hclosed :
      (∀ rule ∈ rules, db.ClosedUnder rule) ↔ ∀ rule ∈ program.rules, db.ClosedUnder rule :=
    forall_congr' fun rule => by rw [hrules.mem_iff]
  exact and_congr (by rw [ofProgram_of_perm hfacts]) hclosed

/-- The evaluation of a program whose facts are string literals gives the same database and the same
answers whatever the order of the facts and of the rules, under all settings. -/
theorem evaluation_ignores_order
    (hliteral : program.FactsLiteral)
    (hfacts : facts.Perm program.facts)
    (hrules : rules.Perm program.rules)
    (settings settings' : EvaluationSettings) :
    let reordered := { program with facts := facts, rules := rules }
    (Evaluation.ofProgram settings' reordered).database =
        (Evaluation.ofProgram settings program).database ∧
      (Evaluation.ofProgram settings' reordered).report.answers =
        (Evaluation.ofProgram settings program).report.answers := by
  intro reordered
  have hliteral' : reordered.FactsLiteral := fun fact hfact =>
    hliteral fact (hfacts.mem_iff.1 hfact)
  have hleast := isLeast_database hliteral' settings'
  rw [models_of_perm hfacts hrules] at hleast
  have hsame := hleast.unique (isLeast_database hliteral settings)
  refine ⟨hsame, ?_⟩
  change program.queries.map (Evaluation.ofProgram settings' reordered).database.answer =
    program.queries.map (Evaluation.ofProgram settings program).database.answer
  rw [hsame]

theorem ancestry_ignores_order :
    let reordered :=
      { ancestry with facts := ancestry.facts.reverse, rules := ancestry.rules.reverse }
    ancestry.FactsLiteral ∧
      (Evaluation.ofProgram { optimize := false } reordered).database =
        (Evaluation.ofProgram { optimize := true } ancestry).database ∧
      (Evaluation.ofProgram { optimize := false } reordered).report.answers =
        (Evaluation.ofProgram { optimize := true } ancestry).report.answers := by
  have hliteral : ancestry.FactsLiteral := by decide
  exact ⟨hliteral, evaluation_ignores_order hliteral (List.reverse_perm _) (List.reverse_perm _)
    { optimize := true } { optimize := false }⟩

end Order

end Program

namespace Database

section Grafting

variable {db other : Database} {names : Set String} [DecidablePred (· ∈ names)]

/-- The database with the relations of a set of names taken from another one. -/
def graft
    (db other : Database) (names : Set String) [DecidablePred (· ∈ names)] :
    Database :=
  ⟨db.byName.filterMap fun name r => if name ∈ names then other.relation? name else some r⟩

theorem relation?_graft
    (h : other ≤ db)
    (name : String) :
    (db.graft other names).relation? name =
      if name ∈ names then other.relation? name else db.relation? name := by
  have hget :
      (db.graft other names).relation? name =
        (db.relation? name).bind fun r =>
          if name ∈ names then other.relation? name else some r :=
    OrderedMap.get?_filterMap _ db.byName name
  rw [hget]
  cases hr : db.relation? name with
  | none => simp [(eq_none_iff_of_le h).2 hr]
  | some r => rfl

theorem graft_le
    (h : other ≤ db) :
    db.graft other names ≤ db := by
  intro name
  rw [relation?_graft h]
  split
  · exact h name
  · exact le_refl db name

/-- A rule that reads and derives relations of the set only derives from the graft what it derives
from the other database. -/
theorem derive_graft
    (h : other ≤ db)
    {rule : Rule}
    (hhead : rule.head.name ∈ names)
    (hbody : ∀ predicate ∈ rule.body, predicate.name ∈ names) :
    (db.graft other names).derive rule = other.derive rule := by
  refine derive_congr ?_ fun predicate hpredicate => ?_
  · rw [relation?_graft h, if_pos hhead]
  · rw [relation?_graft h, if_pos (hbody predicate hpredicate)]

end Grafting

end Database

namespace Program

section Relevance

variable {program : Program} {names : Set String}

/-- The rules that derive relations of the set read no other relations. -/
def ReadsWithin (program : Program) (names : Set String) : Prop :=
  ∀ rule ∈ program.rules, rule.head.name ∈ names → ∀ predicate ∈ rule.body, predicate.name ∈ names

variable [DecidablePred (· ∈ names)]

/-- The program without the facts and rules of relations outside the set. -/
def within
    (program : Program) (names : Set String) [DecidablePred (· ∈ names)] :
    Program :=
  { program with
    facts := program.facts.filter fun fact => fact.name ∈ names
    rules := program.rules.filter fun rule => rule.head.name ∈ names }

theorem FactsLiteral.within
    (h : program.FactsLiteral) :
    (program.within names).FactsLiteral :=
  fun fact hfact => h fact (List.mem_of_mem_filter hfact)

theorem mem_rules_within
    {rule : Rule} :
    rule ∈ (program.within names).rules ↔ rule ∈ program.rules ∧ rule.head.name ∈ names := by
  simp [Program.within]

theorem relation?_ofProgram_within
    {name : String}
    (hname : name ∈ names) :
    (Database.ofProgram (program.within names)).relation? name =
      (Database.ofProgram program).relation? name := by
  have hrows : factRows (program.within names).facts name = factRows program.facts name := by
    unfold factRows Program.within
    rw [List.filter_filter]
    refine congrArg _ (List.filter_congr fun fact _ => ?_)
    by_cases heq : fact.name = name <;> simp [heq, hname]
  rw [Database.relation?_ofProgram, Database.relation?_ofProgram, hrows]
  rfl

/-- The facts of the other relations are not loaded. -/
theorem ofProgram_within_le :
    Database.ofProgram (program.within names) ≤ Database.ofProgram program := by
  intro name
  by_cases hname : name ∈ names
  · rw [relation?_ofProgram_within hname]
    exact le_refl (Database.ofProgram program) name
  · have hrows : factRows (program.within names).facts name = [] := by
      unfold factRows Program.within
      rw [List.map_eq_nil_iff, List.filter_eq_nil_iff]
      intro fact hfact heq
      obtain ⟨_, hmem⟩ := List.mem_filter.1 hfact
      exact hname (beq_iff_eq.1 heq ▸ of_decide_eq_true hmem)
    rw [Database.relation?_ofProgram, Database.relation?_ofProgram, hrows]
    change Option.Rel _ ((program.scheme? name).map _) _
    cases program.scheme? name with
    | none => exact Option.Rel.none
    | some scheme => exact Option.Rel.some (Relation.le_insertAll _ _)

/-- Deleting rules and facts adds no rows. -/
theorem le_of_isLeast_within
    {db part : Database}
    (hdb : db ∈ program.models)
    (hpart : IsLeast (program.within names).models part) :
    part ≤ db := by
  refine hpart.2 ⟨le_trans ofProgram_within_le hdb.1, fun rule hrule => ?_⟩
  exact hdb.2 rule (mem_rules_within.1 hrule).1

/-- A model of the whole program stays one with the relations of the set taken from a smaller model
of the program within the set. -/
theorem graft_mem_models
    (hreads : program.ReadsWithin names)
    {db part : Database}
    (hdb : db ∈ program.models)
    (hpart : part ∈ (program.within names).models)
    (hle : part ≤ db) :
    db.graft part names ∈ program.models := by
  constructor
  · intro name
    rw [Database.relation?_graft hle]
    split
    · rename_i hname
      rw [← relation?_ofProgram_within hname]
      exact hpart.1 name
    · exact hdb.1 name
  · intro rule hrule derived head hderive hhead row hrow
    by_cases hname : rule.head.name ∈ names
    · rw [Database.derive_graft hle hname (hreads rule hrule hname)] at hderive
      rw [Database.relation?_graft hle, if_pos hname] at hhead
      exact hpart.2 rule (mem_rules_within.2 ⟨hrule, hname⟩) derived head hderive hhead row hrow
    · -- The rule derives no more than from the whole model, which has its rows already.
      rw [Database.relation?_graft hle, if_neg hname] at hhead
      obtain ⟨larger, hlarger, hsub⟩ :=
        Database.exists_le_of_derive (Database.graft_le hle) hderive
      exact hdb.2 rule hrule larger head hlarger hhead row (hsub.2.2 row hrow)

/-- The least models with and without the other rules and facts agree on the set. -/
theorem relation?_eq_of_isLeast
    (hreads : program.ReadsWithin names)
    {db part : Database}
    (hdb : IsLeast program.models db)
    (hpart : IsLeast (program.within names).models part)
    {name : String}
    (hname : name ∈ names) :
    db.relation? name = part.relation? name := by
  have hle := le_of_isLeast_within hdb.1 hpart
  have hgraft := hdb.2 (graft_mem_models hreads hdb.1 hpart.1 hle)
  have hsame : db.graft part names = db := le_antisymm (Database.graft_le hle) hgraft
  rw [← hsame, Database.relation?_graft hle, if_pos hname]

/-- Rules and facts of other relations do not interfere.  If the rules of a set of relations read
only relations of the set, the evaluation gives these relations the same rows, and queries of them
the same answers, as without all other rules and facts, under all settings. -/
theorem evaluation_ignores_irrelevant
    (hliteral : program.FactsLiteral)
    (hreads : program.ReadsWithin names)
    (settings settings' : EvaluationSettings) :
    let whole := Evaluation.ofProgram settings program
    let part := Evaluation.ofProgram settings' (program.within names)
    (∀ name ∈ names, whole.database.relation? name = part.database.relation? name) ∧
      (∀ query : Predicate, query.name ∈ names →
        whole.database.answer query = part.database.answer query) ∧
      ∀ (i : Nat) (query : Predicate), program.queries[i]? = some query → query.name ∈ names →
        ∃ answer,
          whole.report.answers[i]? = some answer ∧ part.report.answers[i]? = some answer := by
  intro whole part
  have hsame (name : String) (hname : name ∈ names) :
      whole.database.relation? name = part.database.relation? name :=
    relation?_eq_of_isLeast hreads (isLeast_database hliteral settings)
      (isLeast_database hliteral.within settings') hname
  have hanswer (query : Predicate) (hquery : query.name ∈ names) :
      whole.database.answer query = part.database.answer query := by
    unfold Database.answer
    rw [hsame _ hquery]
  refine ⟨hsame, hanswer, fun i query hget hquery => ?_⟩
  refine ⟨whole.database.answer query, ?_, ?_⟩
  · change (program.queries.map whole.database.answer)[i]? = _
    rw [List.getElem?_map, hget, Option.map_some]
  · change (program.queries.map part.database.answer)[i]? = _
    rw [List.getElem?_map, hget, Option.map_some, hanswer query hquery]

/-- Ancestors, and heirs who must be among the descendants of a testator. -/
def inheritance : Program where
  schemes := ancestry.schemes ++ [⟨"Testator", ["a"]⟩, ⟨"Heir", ["a"]⟩]
  facts := ⟨"Testator", ["'ann'"]⟩ :: ancestry.facts
  rules :=
    ⟨⟨"Heir", ["y"]⟩, [⟨"Testator", ["x"]⟩, ⟨"Ancestor", ["x", "y"]⟩]⟩ :: ancestry.rules
  queries := ⟨"Heir", ["x"]⟩ :: ancestry.queries

/-- Ancestors do not depend on who inherits. -/
theorem inheritance_irrelevant :
    let names := {name : String | name = "Parent" ∨ name = "Ancestor"}
    let whole := Evaluation.ofProgram { optimize := true } inheritance
    let part := Evaluation.ofProgram { optimize := false } (inheritance.within names)
    inheritance.FactsLiteral ∧ inheritance.ReadsWithin names ∧
      (inheritance.within names).facts = ancestry.facts ∧
      (inheritance.within names).rules = ancestry.rules ∧
      whole.database.relation? "Ancestor" = part.database.relation? "Ancestor" ∧
      ∃ answer, whole.report.answers[1]? = some answer ∧ part.report.answers[1]? = some answer := by
  intro names whole part
  have hliteral : inheritance.FactsLiteral := by decide
  have hreads : inheritance.ReadsWithin names := by
    unfold ReadsWithin
    decide
  obtain ⟨hsame, _, hanswers⟩ :=
    evaluation_ignores_irrelevant hliteral hreads { optimize := true } { optimize := false }
  exact ⟨hliteral, hreads, by decide, by decide, hsame "Ancestor" (Or.inr rfl),
    hanswers 1 ⟨"Ancestor", ["'ann'", "x"]⟩ rfl (Or.inr rfl)⟩

end Relevance

end Program

end Independence

end Datalog
