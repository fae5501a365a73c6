import Datalog.Proofs.Source.Shape

/-!
# Reading what is printed

**Listings.** The text of a program counts the entries of its sections and ends with the domain.
`Program.listing` is that text without the domain and with a free choice of the counts, so the same
definition gives the printed text and the source text without counts.

**Printable programs.** A program is `Printable` if each of its terms is what the grammar takes for
one in its place, without expressions, and nothing is missing.

**Results.** `Writes` says that a text is a phrase wherever it stands in front of a spelling.  Each
part of a printable program writes a phrase for that part, whatever its strings contain, so the
listing without counts is read as the program itself.
-/

namespace Datalog

section Printing

section Listings

/-- A section with a mark for the number of its entries, each on an indented line. -/
def listedSection (mark : Nat → String) (title : String) (entries : List String) : String :=
  title ++ mark entries.length ++ ":" ++ String.join (entries.map fun entry => "\n  " ++ entry) ++
    "\n"

/-- The number of entries in parentheses. -/
def counted (n : Nat) : String :=
  "(" ++ toString n ++ ")"

/-- No number of entries. -/
def uncounted (_ : Nat) : String :=
  ""

/-- The four sections of a program. -/
def Program.listing (mark : Nat → String) (program : Program) : String :=
  listedSection mark "Schemes" (program.schemes.map Predicate.text) ++
    listedSection mark "Facts" (program.facts.map fun fact => fact.text ++ ".") ++
    listedSection mark "Rules" (program.rules.map Rule.text) ++
    listedSection mark "Queries" (program.queries.map fun query => query.text ++ "?")

theorem listedSection_counted (title : String) (entries : List String) :
    listedSection counted title entries = Program.sectionText title entries ++ "\n" := by
  simp [listedSection, counted, Program.sectionText, String.append_assoc]

/-- The text of a program is the listing with counts, and then the domain. -/
theorem Program.text_eq_listing (program : Program) :
    program.text =
      program.listing counted ++ sectionText "Domain" program.domain.toList := by
  unfold text listing
  simp only [listedSection_counted, String.intercalate_cons_cons, String.intercalate_singleton,
    String.append_assoc]

end Listings

section Printable

/-- A term that is no expression. -/
def SimpleTerm (term : String) : Prop :=
  Identifier term ∨ StringLiteral term

/-- A name and terms that the grammar takes in their places. -/
structure Predicate.Printable (q : String → Prop) (predicate : Predicate) : Prop where
  name : Identifier predicate.name
  terms : predicate.Filled q

/-- A program without expressions that has everything the grammar demands. -/
structure Program.Printable (program : Program) : Prop where
  some_scheme : program.schemes ≠ []
  some_query : program.queries ≠ []
  schemes : ∀ scheme ∈ program.schemes, scheme.Printable Identifier
  facts : ∀ fact ∈ program.facts, fact.Printable StringLiteral
  heads : ∀ rule ∈ program.rules, rule.head.Printable Identifier
  bodies :
    ∀ rule ∈ program.rules,
      rule.body ≠ [] ∧ ∀ predicate ∈ rule.body, predicate.Printable SimpleTerm
  queries : ∀ query ∈ program.queries, query.Printable SimpleTerm

instance : DecidablePred SimpleTerm := fun term =>
  inferInstanceAs (Decidable (Identifier term ∨ StringLiteral term))

instance (q : String → Prop) [DecidablePred q] (predicate : Predicate) :
    Decidable (predicate.Printable q) :=
  decidable_of_iff (Identifier predicate.name ∧ predicate.Filled q)
    ⟨fun h => ⟨h.1, h.2⟩, fun h => ⟨h.name, h.terms⟩⟩

instance (program : Program) : Decidable program.Printable :=
  decidable_of_iff
    (program.schemes ≠ [] ∧ program.queries ≠ [] ∧
      (∀ scheme ∈ program.schemes, scheme.Printable Identifier) ∧
      (∀ fact ∈ program.facts, fact.Printable StringLiteral) ∧
      (∀ rule ∈ program.rules, rule.head.Printable Identifier) ∧
      (∀ rule ∈ program.rules,
        rule.body ≠ [] ∧ ∀ predicate ∈ rule.body, predicate.Printable SimpleTerm) ∧
      ∀ query ∈ program.queries, query.Printable SimpleTerm)
    ⟨fun ⟨hs, hq, hschemes, hfacts, hheads, hbodies, hqueries⟩ =>
      ⟨hs, hq, hschemes, hfacts, hheads, hbodies, hqueries⟩,
      fun h => ⟨h.1, h.2, h.3, h.4, h.5, h.6, h.7⟩⟩

end Printable

namespace Token

variable {tokens : List Token} {after : List Char}

theorem Spelled.token
    {token : Token}
    (h : Spelled tokens after)
    (hproper : token.Proper)
    (hends : token.EndsAt after) :
    Spelled (token :: tokens) (token.characters ++ after) :=
  Spelled.cons (Layout.Before.refl _) hproper hends h

theorem Spelled.blank
    (h : Spelled tokens after)
    {c : Char}
    (hblank : Layout.isBlank c = true) :
    Spelled tokens (c :: after) := by
  cases h with
  | nil hbefore => exact Spelled.nil (Layout.Before.blank hblank hbefore)
  | cons hbefore hproper hends hrest =>
      exact Spelled.cons (Layout.Before.blank hblank hbefore) hproper hends hrest

theorem endsWord_cons
    {c : Char}
    (h : c.isAlphanum = false)
    (after : List Char) :
    EndsWord (c :: after) := by
  intro d hd
  cases hd
  exact h

end Token

namespace Grammar

open Reader Token

variable {α : Type} {P : List Token → α → Prop}

/-- Before any spelling that does not go on with a letter or a digit, the text is a phrase. -/
def Writes (P : List Token → α → Prop) (text : String) (a : α) : Prop :=
  ∃ used, P used a ∧
    ∀ tokens after, EndsWord after → Spelled tokens after →
      Spelled (used ++ tokens) (text.toList ++ after)

section Terms

variable {text : String}

theorem writes_identifier
    (h : Identifier text) :
    Writes IsIdentifier text text :=
  ⟨[.word text], IsIdentifier.word h.not_keyword, fun _ _ hends hafter =>
    hafter.token h.spelled hends⟩

theorem writes_string
    (h : StringLiteral text) :
    Writes IsString text text :=
  ⟨[.quoted text], IsString.quoted text, fun _ _ _ hafter => hafter.token h trivial⟩

theorem writes_parameter
    (h : SimpleTerm text) :
    Writes IsParameter text text := by
  rcases h with hidentifier | hstring
  · obtain ⟨used, hused, hspelled⟩ := writes_identifier hidentifier
    exact ⟨used, IsParameter.identifier hused, hspelled⟩
  · obtain ⟨used, hused, hspelled⟩ := writes_string hstring
    exact ⟨used, IsParameter.string hused, hspelled⟩

end Terms

section Lists

variable {write : α → String} {items : List α}

/-- Texts of phrases with commas between them are a list. -/
theorem writes_listed
    (hne : items ≠ [])
    (h : ∀ item ∈ items, Writes P (write item) item) :
    Writes (Listed .comma P) (",".intercalate (items.map write)) items := by
  induction items with
  | nil => exact absurd rfl hne
  | cons item items ih =>
      obtain ⟨used, hused, hspelled⟩ := h item List.mem_cons_self
      cases items with
      | nil => exact ⟨used, Listed.one hused, by simpa using hspelled⟩
      | cons next items =>
          obtain ⟨others, hothers, hspelled'⟩ :=
            ih (List.cons_ne_nil next items) fun i hi => h i (List.mem_cons_of_mem _ hi)
          refine ⟨used ++ .comma :: others, Listed.more hused hothers,
            fun tokens after hends hafter => ?_⟩
          have hlist := hspelled' tokens after hends hafter
          have hcomma : Spelled (.comma :: (others ++ tokens)) (',' :: _) :=
            hlist.token trivial trivial
          have hwhole := hspelled _ _ (endsWord_cons (by decide) _) hcomma
          simpa [String.intercalate_cons_cons, characters] using hwhole

theorem endsWord_join
    {after : List Char}
    (h : EndsWord after) :
    EndsWord ((String.join (items.map fun item => "\n  " ++ write item)).toList ++ after) := by
  cases items with
  | nil => simpa using h
  | cons item items => simpa using endsWord_cons (by decide) _

/-- Texts of phrases, each on an indented line, are a sequence. -/
theorem writes_sequence
    (h : ∀ item ∈ items, Writes P (write item) item) :
    Writes (Sequence P) (String.join (items.map fun item => "\n  " ++ write item)) items := by
  induction items with
  | nil => exact ⟨[], Sequence.nil, fun _ _ _ hafter => by simpa using hafter⟩
  | cons item items ih =>
      obtain ⟨used, hused, hspelled⟩ := h item List.mem_cons_self
      obtain ⟨others, hothers, hspelled'⟩ := ih fun i hi => h i (List.mem_cons_of_mem _ hi)
      refine ⟨used ++ others, Sequence.cons hused hothers, fun tokens after hends hafter => ?_⟩
      have hrest := hspelled' tokens after hends hafter
      have hline := hspelled _ _ (endsWord_join hends) hrest
      have hindented : Spelled _ ('\n' :: ' ' :: ' ' :: _) :=
        ((hline.blank rfl).blank rfl).blank rfl
      simpa using hindented

end Lists

section Entries

variable {predicate fact query : Predicate} {rule : Rule}

theorem writes_applied
    {P : List Token → String → Prop} {q : String → Prop}
    (h : predicate.Printable q)
    (hP : ∀ term, q term → Writes P term term) :
    Writes (IsApplied P) predicate.text predicate := by
  obtain ⟨us, hus, hname⟩ := writes_identifier h.name
  obtain ⟨ts, hts, hterms⟩ :=
    writes_listed h.terms.nonempty fun term hterm => hP term (h.terms.terms term hterm)
  refine ⟨us ++ .opening :: (ts ++ [.closing]), IsApplied.mk hus (by simpa using hts),
    fun tokens after _ hafter => ?_⟩
  have hclosing : Spelled (.closing :: tokens) (')' :: after) := hafter.token trivial trivial
  have hlist := hterms _ _ (endsWord_cons (by decide) _) hclosing
  have hopening : Spelled (.opening :: (ts ++ .closing :: tokens)) ('(' :: _) :=
    hlist.token trivial trivial
  have hwhole := hname _ _ (endsWord_cons (by decide) _) hopening
  simpa [Predicate.text] using hwhole

theorem writes_scheme
    (h : predicate.Printable Identifier) :
    Writes IsScheme predicate.text predicate :=
  writes_applied h fun _ => writes_identifier

theorem writes_predicate
    (h : predicate.Printable SimpleTerm) :
    Writes IsPredicate predicate.text predicate :=
  writes_applied h fun _ => writes_parameter

theorem writes_fact
    (h : fact.Printable StringLiteral) :
    Writes IsFact (fact.text ++ ".") fact := by
  obtain ⟨used, hused, hspelled⟩ := writes_applied h fun _ => writes_string
  refine ⟨used ++ [.dot], IsFact.mk hused, fun tokens after _ hafter => ?_⟩
  have hdot : Spelled (.dot :: tokens) ('.' :: after) := hafter.token trivial trivial
  simpa using hspelled _ _ (endsWord_cons (by decide) _) hdot

theorem writes_rule
    (hhead : rule.head.Printable Identifier)
    (hne : rule.body ≠ [])
    (hbody : ∀ predicate ∈ rule.body, predicate.Printable SimpleTerm) :
    Writes IsRule rule.text rule := by
  obtain ⟨hs, hhs, hspelled⟩ := writes_applied hhead fun _ => writes_identifier
  obtain ⟨bs, hbs, hspelled'⟩ :=
    writes_listed hne fun predicate hpredicate => writes_predicate (hbody predicate hpredicate)
  refine ⟨hs ++ .arrow :: (bs ++ [.dot]), IsRule.mk hhs hbs, fun tokens after _ hafter => ?_⟩
  have hdot : Spelled (.dot :: tokens) ('.' :: after) := hafter.token trivial trivial
  have hlist := hspelled' _ _ (endsWord_cons (by decide) _) hdot
  have harrow : Spelled (.arrow :: (bs ++ .dot :: tokens)) (':' :: '-' :: ' ' :: _) :=
    (hlist.blank rfl).token trivial trivial
  have hblank : Spelled _ (' ' :: _) := harrow.blank rfl
  have hwhole := hspelled _ _ (endsWord_cons (by decide) _) hblank
  simpa [Rule.text] using hwhole

theorem writes_query
    (h : query.Printable SimpleTerm) :
    Writes IsQuery (query.text ++ "?") query := by
  obtain ⟨used, hused, hspelled⟩ := writes_predicate h
  refine ⟨used ++ [.question], IsQuery.mk hused, fun tokens after _ hafter => ?_⟩
  have hquestion : Spelled (.question :: tokens) ('?' :: after) := hafter.token trivial trivial
  simpa using hspelled _ _ (endsWord_cons (by decide) _) hquestion

end Entries

section Sections

/-- A section without a count is a section of the grammar, whatever comes in the next line. -/
theorem spelled_listedSection
    (title : String)
    (htitle : title ∈ keywords)
    {write : α → String} {entries : List α}
    (h : ∀ entry ∈ entries, Writes P (write entry) entry)
    {tokens : List Token} {after : List Char}
    (hafter : Spelled tokens after) :
    ∃ used, IsSection title P used entries ∧
      Spelled (used ++ tokens)
        ((listedSection uncounted title (entries.map write)).toList ++ after) := by
  obtain ⟨used, hused, hspelled⟩ := writes_sequence h
  refine ⟨.word title :: .colon :: used, IsSection.mk hused, ?_⟩
  have hbreak : Spelled tokens ('\n' :: after) := hafter.blank rfl
  have hentries := hspelled _ _ (endsWord_cons (by decide) _) hbreak
  have hcolon : Spelled (.colon :: (used ++ tokens)) (':' :: _) := hentries.token trivial trivial
  have hwhole := hcolon.token (proper_keyword htitle) (endsWord_cons (by decide) _)
  simpa [listedSection, uncounted, characters, Function.comp_def] using hwhole

theorem exists_spelled_listing
    {program : Program}
    (h : program.Printable) :
    ∃ tokens, Spelled tokens (program.listing uncounted).toList ∧ IsProgram tokens program := by
  have hnil : Spelled [] [] := Spelled.nil (Layout.Before.refl [])
  -- Each section stands before a spelling of those after it, so the last one comes first here.
  obtain ⟨qs, hqs, hspelled⟩ :=
    spelled_listedSection "Queries" (by decide)
      (fun query hquery => writes_query (h.queries query hquery)) hnil
  obtain ⟨rs, hrs, hspelled⟩ :=
    spelled_listedSection "Rules" (by decide)
      (fun rule hrule => writes_rule (h.heads rule hrule) (h.bodies rule hrule).1
        (h.bodies rule hrule).2) hspelled
  obtain ⟨fs, hfs, hspelled⟩ :=
    spelled_listedSection "Facts" (by decide)
      (fun fact hfact => writes_fact (h.facts fact hfact)) hspelled
  obtain ⟨ss, hss, hspelled⟩ :=
    spelled_listedSection "Schemes" (by decide)
      (fun scheme hscheme => writes_scheme (h.schemes scheme hscheme)) hspelled
  refine ⟨ss ++ (fs ++ (rs ++ qs)), ?_,
    IsProgram.mk hss h.some_scheme hfs hrs hqs h.some_query⟩
  simpa [Program.listing] using hspelled

theorem exists_spelled_query
    {query : Predicate}
    (h : query.Printable SimpleTerm) :
    ∃ tokens, Spelled tokens (query.text ++ "?").toList ∧ IsQuery tokens query := by
  obtain ⟨used, hused, hspelled⟩ := writes_query h
  have hnil : Spelled [] [] := Spelled.nil (Layout.Before.refl [])
  have hwhole := hspelled [] [] nofun hnil
  rw [List.append_nil, List.append_nil] at hwhole
  exact ⟨used, hwhole, hused⟩

end Sections

end Grammar

/-- The listing of a printable program without the counts is read as the program, and a printable
query with a question mark is read as the query. -/
theorem parsing_undoes_printing :
    (∀ program : Program,
      program.text =
        program.listing counted ++ Program.sectionText "Domain" program.domain.toList) ∧
    (∀ program : Program, program.Printable →
      Program.parse (program.listing uncounted) = .ok program) ∧
    ∀ query : Predicate, query.Printable SimpleTerm →
      Predicate.parseQuery (query.text ++ "?") = .ok query := by
  refine ⟨Program.text_eq_listing, fun program hprogram => ?_, fun query hquery => ?_⟩
  · rw [Program.parse_eq_ok_iff, Grammar.whole?_program_iff]
    exact Grammar.exists_spelled_listing hprogram
  · rw [Predicate.parseQuery_eq_ok_iff, Grammar.whole?_query_iff]
    exact Grammar.exists_spelled_query hquery

namespace Program

/-- Strings with punctuation, comments, a keyword and a line end in them. -/
def quoting : Program where
  schemes := [⟨"Said", ["who", "what"]⟩]
  facts := [⟨"Said", ["'ann'", "'it''s, (x) |# #| y'"]⟩, ⟨"Said", ["''", "'Rules:\n# '"]⟩]
  rules := [⟨⟨"Said", ["x", "y"]⟩, [⟨"Said", ["y", "'#'"]⟩, ⟨"Said", ["x", "''''"]⟩]⟩]
  queries := [⟨"Said", ["'a?).'", "x"]⟩]

theorem quoting_read_back :
    quoting.Printable ∧ parse (quoting.listing uncounted) = .ok quoting ∧
      ∀ query ∈ quoting.queries, Predicate.parseQuery (query.text ++ "?") = .ok query := by
  have hprintable : quoting.Printable := by decide +kernel
  exact ⟨hprintable, parsing_undoes_printing.2.1 quoting hprintable, fun query hquery =>
    parsing_undoes_printing.2.2 query (hprintable.queries query hquery)⟩

end Program

end Printing

end Datalog
