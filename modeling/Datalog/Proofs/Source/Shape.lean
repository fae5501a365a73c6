import Datalog.Proofs.Source.Language

/-!
# The shape of programs that are read

**Shape.** `Program.Shaped` is what the grammar demands of the terms of a program: identifiers as
columns and as head terms, string literals in the facts and no empty term, no predicate without
terms and no rule without a body.

**Results.** Over proper tokens each production gives things of its shape, so a program that is read
from a text is shaped.
-/

namespace Datalog

section Shape

/-- A word that is no keyword. -/
structure Identifier (text : String) : Prop where
  spelled :
    ∃ c rest, text.toList = c :: rest ∧ c.isAlpha = true ∧ ∀ d ∈ rest, d.isAlphanum = true
  not_keyword : text ∉ Grammar.keywords

/-- There is a term, and every term has a property. -/
structure Predicate.Filled (q : String → Prop) (predicate : Predicate) : Prop where
  nonempty : predicate.terms ≠ []
  terms : ∀ term ∈ predicate.terms, q term

/-- What the grammar demands of the terms of a program. -/
structure Program.Shaped (program : Program) : Prop where
  schemes : ∀ scheme ∈ program.schemes, scheme.Filled Identifier
  facts : ∀ fact ∈ program.facts, fact.Filled StringLiteral
  heads : ∀ rule ∈ program.rules, rule.head.Filled Identifier
  bodies :
    ∀ rule ∈ program.rules,
      rule.body ≠ [] ∧ ∀ predicate ∈ rule.body, predicate.Filled (· ≠ "")
  queries : ∀ query ∈ program.queries, query.Filled (· ≠ "")

section Deciding

instance (text : String) : Decidable (Identifier text) :=
  match h : text.toList with
  | [] => isFalse fun hidentifier => by
      obtain ⟨c, rest, heq, _⟩ := hidentifier.spelled
      rw [h] at heq
      cases heq
  | c :: rest =>
      decidable_of_iff
        ((c.isAlpha = true ∧ rest.all Char.isAlphanum = true) ∧ text ∉ Grammar.keywords) (by
        rw [List.all_eq_true]
        constructor
        · rintro ⟨⟨halpha, hrest⟩, hkeyword⟩
          exact ⟨⟨c, rest, h, halpha, hrest⟩, hkeyword⟩
        · rintro ⟨⟨c', rest', heq, halpha, hrest⟩, hkeyword⟩
          rw [h] at heq
          cases heq
          exact ⟨⟨halpha, hrest⟩, hkeyword⟩)

instance (q : String → Prop) [DecidablePred q] (predicate : Predicate) :
    Decidable (predicate.Filled q) :=
  decidable_of_iff (predicate.terms ≠ [] ∧ ∀ term ∈ predicate.terms, q term)
    ⟨fun h => ⟨h.1, h.2⟩, fun h => ⟨h.nonempty, h.terms⟩⟩

instance (program : Program) : Decidable program.Shaped :=
  decidable_of_iff
    ((∀ scheme ∈ program.schemes, scheme.Filled Identifier) ∧
      (∀ fact ∈ program.facts, fact.Filled StringLiteral) ∧
      (∀ rule ∈ program.rules, rule.head.Filled Identifier) ∧
      (∀ rule ∈ program.rules,
        rule.body ≠ [] ∧ ∀ predicate ∈ rule.body, predicate.Filled (· ≠ "")) ∧
      ∀ query ∈ program.queries, query.Filled (· ≠ ""))
    ⟨fun ⟨hs, hf, hh, hb, hq⟩ => ⟨hs, hf, hh, hb, hq⟩,
      fun h => ⟨h.schemes, h.facts, h.heads, h.bodies, h.queries⟩⟩

end Deciding

section Words

theorem Identifier.ne_empty
    {text : String}
    (h : Identifier text) :
    text ≠ "" := by
  rintro rfl
  obtain ⟨c, rest, heq, _⟩ := h.spelled
  cases heq

theorem StringLiteral.ne_empty
    {text : String}
    (h : StringLiteral text) :
    text ≠ "" := by
  rintro rfl
  obtain ⟨body, _, heq⟩ := h
  cases heq

end Words

namespace Grammar

open Reader

section Productions

variable {α : Type} {P : List Token → α → Prop} {q : α → Prop}

/-- All that the production derives from proper tokens has a property. -/
def Gives (P : List Token → α → Prop) (q : α → Prop) : Prop :=
  ∀ used a, P used a → (∀ token ∈ used, token.Proper) → q a

theorem gives_identifier : Gives IsIdentifier Identifier := by
  rintro _ _ ⟨hkeyword⟩ hproper
  exact ⟨hproper _ List.mem_cons_self, hkeyword⟩

theorem gives_string : Gives IsString StringLiteral := by
  rintro _ _ ⟨⟩ hproper
  exact hproper _ List.mem_cons_self

theorem gives_parameter : Gives IsParameter (· ≠ "") := by
  intro used text h hproper
  induction h with
  | string hstring => exact (gives_string _ _ hstring hproper).ne_empty
  | identifier hidentifier => exact (gives_identifier _ _ hidentifier hproper).ne_empty
  | @expression _ _ _ _ _ op => cases op <;> simp [Operator.text]

theorem gives_listed
    (h : Gives P q) :
    Gives (Listed .comma P) fun items => items ≠ [] ∧ ∀ item ∈ items, q item := by
  intro used items hlisted hproper
  induction hlisted with
  | one hphrase => simpa using h _ _ hphrase hproper
  | more hphrase _ ih =>
      simp only [List.forall_mem_append, List.forall_mem_cons] at hproper
      exact ⟨List.cons_ne_nil _ _,
        List.forall_mem_cons.2 ⟨h _ _ hphrase hproper.1, (ih hproper.2.2).2⟩⟩

theorem gives_sequence
    (h : Gives P q) :
    Gives (Sequence P) fun items => ∀ item ∈ items, q item := by
  intro used items hsequence hproper
  induction hsequence with
  | nil => exact nofun
  | cons hphrase _ ih =>
      rw [List.forall_mem_append] at hproper
      exact List.forall_mem_cons.2 ⟨h _ _ hphrase hproper.1, ih hproper.2⟩

theorem gives_applied
    {P : List Token → String → Prop} {q : String → Prop}
    (h : Gives P q) :
    Gives (IsApplied P) fun predicate => predicate.Filled q := by
  rintro _ _ ⟨_, hterms⟩ hproper
  simp only [List.forall_mem_append, List.forall_mem_cons] at hproper
  obtain ⟨hnonempty, hall⟩ := gives_listed h _ _ hterms hproper.2.2.1
  exact ⟨hnonempty, hall⟩

theorem gives_fact : Gives IsFact fun fact => fact.Filled StringLiteral := by
  rintro _ _ ⟨hfact⟩ hproper
  exact gives_applied gives_string _ _ hfact (List.forall_mem_append.1 hproper).1

theorem gives_predicate : Gives IsPredicate fun predicate => predicate.Filled (· ≠ "") :=
  gives_applied gives_parameter

theorem gives_rule :
    Gives IsRule fun rule =>
      rule.head.Filled Identifier ∧ rule.body ≠ [] ∧
        ∀ predicate ∈ rule.body, predicate.Filled (· ≠ "") := by
  rintro _ _ ⟨hhead, hbody⟩ hproper
  simp only [List.forall_mem_append, List.forall_mem_cons] at hproper
  exact ⟨gives_applied gives_identifier _ _ hhead hproper.1,
    gives_listed gives_predicate _ _ hbody hproper.2.2.1⟩

theorem gives_query : Gives IsQuery fun query => query.Filled (· ≠ "") := by
  rintro _ _ ⟨hquery⟩ hproper
  exact gives_predicate _ _ hquery (List.forall_mem_append.1 hproper).1

theorem gives_section
    (keyword : String)
    (h : Gives P q) :
    Gives (IsSection keyword P) fun entries => ∀ entry ∈ entries, q entry := by
  rintro _ _ ⟨hentries⟩ hproper
  simp only [List.forall_mem_cons] at hproper
  exact gives_sequence h _ _ hentries hproper.2.2

theorem gives_program : Gives IsProgram Program.Shaped := by
  rintro _ _ ⟨hss, _, hfs, hrs, hqs, _⟩ hproper
  simp only [List.forall_mem_append] at hproper
  obtain ⟨hschemes, hfacts, hrules, hqueries⟩ := hproper
  have hshapes := gives_section "Rules" gives_rule _ _ hrs hrules
  exact ⟨gives_section "Schemes" (gives_applied gives_identifier) _ _ hss hschemes,
    gives_section "Facts" gives_fact _ _ hfs hfacts, fun rule hrule => (hshapes rule hrule).1,
    fun rule hrule => (hshapes rule hrule).2,
    gives_section "Queries" gives_query _ _ hqs hqueries⟩

end Productions

end Grammar

/-- Every program that is read from a text has the shape that the grammar demands. -/
theorem Program.shaped_of_parse
    {text : String} {program : Program}
    (h : parse text = .ok program) :
    program.Shaped := by
  rw [parse_eq_ok_iff, Grammar.whole?_program_iff] at h
  obtain ⟨tokens, hspelled, hprogram⟩ := h
  exact Grammar.gives_program tokens program hprogram hspelled.proper

end Shape

end Datalog
