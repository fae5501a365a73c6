import Datalog.Proofs.Source.Reading
import Datalog.Proofs.Source.Spelling
import Datalog.Source.Grammar

/-!
# The language of programs and queries

**Productions.** Each inductive predicate below is a production of the grammar.  It relates the
tokens of a phrase to what the phrase stands for; an expression stands for its left term, its
operator and its right term, without the parentheses.

**Apartness.** In no phrase does a string come directly after a string, so the scanner reads every
spelling of a phrase.

**Results.** A text is read as a program if and only if it is spelled by tokens that the grammar
derives the program from, and likewise for a query.
-/

namespace Datalog

section Language

namespace Grammar

open Reader

section Productions

/-- A word that is no keyword. -/
inductive IsIdentifier : List Token → String → Prop
  | word {text : String} : text ∉ keywords → IsIdentifier [.word text] text

/-- A quoted string. -/
inductive IsString : List Token → String → Prop
  | quoted (text : String) : IsString [.quoted text] text

/-- An operator. -/
inductive IsOperator : List Token → Operator → Prop
  | plus : IsOperator [.plus] .plus
  | times : IsOperator [.star] .times

/-- A string, an identifier or an expression; an expression loses its parentheses. -/
inductive IsParameter : List Token → String → Prop
  | string {tokens : List Token} {text : String} : IsString tokens text → IsParameter tokens text
  | identifier {tokens : List Token} {text : String} :
      IsIdentifier tokens text → IsParameter tokens text
  | expression {ls os rs : List Token} {left right : String} {op : Operator} :
      IsParameter ls left → IsOperator os op → IsParameter rs right →
      IsParameter (.opening :: (ls ++ (os ++ (rs ++ [.closing])))) (left ++ op.text ++ right)

/-- A name and its terms in parentheses. -/
inductive IsApplied (P : List Token → String → Prop) : List Token → Predicate → Prop
  | mk {us ts : List Token} {name : String} {terms : List String} :
      IsIdentifier us name → Listed .comma P ts terms →
      IsApplied P (us ++ .opening :: (ts ++ [.closing])) ⟨name, terms⟩

/-- A relation name with its columns. -/
def IsScheme : List Token → Predicate → Prop :=
  IsApplied IsIdentifier

/-- A relation name with parameters. -/
def IsPredicate : List Token → Predicate → Prop :=
  IsApplied IsParameter

/-- A relation name with strings, and a dot. -/
inductive IsFact : List Token → Predicate → Prop
  | mk {tokens : List Token} {fact : Predicate} :
      IsApplied IsString tokens fact → IsFact (tokens ++ [.dot]) fact

/-- A head, an arrow, predicates and a dot. -/
inductive IsRule : List Token → Rule → Prop
  | mk {hs bs : List Token} {head : Predicate} {body : List Predicate} :
      IsApplied IsIdentifier hs head → Listed .comma IsPredicate bs body →
      IsRule (hs ++ .arrow :: (bs ++ [.dot])) ⟨head, body⟩

/-- A predicate and a question mark. -/
inductive IsQuery : List Token → Predicate → Prop
  | mk {tokens : List Token} {query : Predicate} :
      IsPredicate tokens query → IsQuery (tokens ++ [.question]) query

/-- A keyword, a colon and the entries of the section. -/
inductive IsSection {α : Type} (keyword : String) (P : List Token → α → Prop) :
    List Token → List α → Prop
  | mk {tokens : List Token} {entries : List α} :
      Sequence P tokens entries → IsSection keyword P (.word keyword :: .colon :: tokens) entries

/-- The four sections, with at least one scheme and at least one query. -/
inductive IsProgram : List Token → Program → Prop
  | mk {ss fs rs qs : List Token} {schemes facts queries : List Predicate} {rules : List Rule} :
      IsSection "Schemes" IsScheme ss schemes → schemes ≠ [] →
      IsSection "Facts" IsFact fs facts →
      IsSection "Rules" IsRule rs rules →
      IsSection "Queries" IsQuery qs queries → queries ≠ [] →
      IsProgram (ss ++ (fs ++ (rs ++ qs))) ⟨schemes, facts, rules, queries⟩

end Productions

section Phrases

theorem proper_keyword
    {keyword : String}
    (h : keyword ∈ keywords) :
    (Token.word keyword).Proper := by
  simp only [keywords, List.mem_cons, List.not_mem_nil, or_false] at h
  rcases h with rfl | rfl | rfl | rfl <;>
    exact ⟨_, _, rfl, rfl, List.all_eq_true.1 rfl⟩

theorem reads_identifier : Reads identifier IsIdentifier := by
  intro tokens text rest
  constructor
  · rintro ⟨_, heq⟩
    unfold identifier at heq
    split at heq
    · split at heq
      · cases heq
      · rename_i hkeyword
        cases heq
        exact ⟨[_], rfl, IsIdentifier.word (by simpa using hkeyword)⟩
    · cases heq
  · rintro ⟨_, rfl, ⟨hkeyword⟩⟩
    exact ⟨Nat.lt_succ_self _, by simp [identifier, hkeyword]⟩

theorem reads_quoted : Reads quoted IsString := by
  intro tokens text rest
  constructor
  · rintro ⟨_, heq⟩
    unfold quoted at heq
    split at heq
    · cases heq
      exact ⟨[_], rfl, IsString.quoted text⟩
    · cases heq
  · rintro ⟨_, rfl, ⟨⟩⟩
    exact ⟨Nat.lt_succ_self _, rfl⟩

theorem reads_operator : Reads operator IsOperator := by
  intro tokens op rest
  constructor
  · rintro ⟨_, heq⟩
    unfold operator at heq
    split at heq <;> cases heq
    · exact ⟨[_], rfl, IsOperator.plus⟩
    · exact ⟨[_], rfl, IsOperator.times⟩
  · rintro ⟨_, rfl, hop⟩
    cases hop <;> exact ⟨Nat.lt_succ_self _, rfl⟩

section Parameters

variable {tokens rest : List Token} {read : Parameter}

theorem isParameter_of_takes
    (h : Takes parameter tokens read rest) :
    ∃ used, tokens = used ++ rest ∧ IsParameter used read.term := by
  obtain ⟨_, heq⟩ := h
  fun_induction parameter tokens generalizing read rest with
  | case1 text after =>
      cases heq
      exact ⟨[_], rfl, IsParameter.string (IsString.quoted text)⟩
  | case3 text after hkeyword =>
      cases heq
      exact ⟨[_], rfl, IsParameter.identifier (IsIdentifier.word (by simpa using hkeyword))⟩
  | case7 after left rest₁ h₁ hleft op rest₂ h₂ hop right rest₃ h₃ hright ihleft ihright =>
      cases heq
      obtain ⟨ls, rfl, hls⟩ := ihleft h₁ hleft
      obtain ⟨os, rfl, hos⟩ := (reads_operator rest₁ op rest₂).1 ⟨h₂, hop⟩
      obtain ⟨rs, rfl, hrs⟩ := ihright h₃ hright
      exact ⟨.opening :: (ls ++ (os ++ (rs ++ [.closing]))), by simp,
        IsParameter.expression hls hos hrs⟩
  | case2 | case4 | case5 | case6 | case8 | case9 => cases heq

theorem takes_operation
    {left right : Parameter} {op : Operator} {rest₁ rest₂ : List Token}
    (hleft : Takes parameter tokens left rest₁)
    (hop : Takes operator rest₁ op rest₂)
    (hright : Takes parameter rest₂ right (.closing :: rest)) :
    Takes parameter (.opening :: tokens) (.operation left op right) rest := by
  obtain ⟨h₁, hleft⟩ := hleft
  obtain ⟨h₂, hop⟩ := hop
  obtain ⟨h₃, hright⟩ := hright
  refine ⟨?_, by rw [parameter, hleft]; simp only [hop, hright]⟩
  simp only [List.length_cons] at h₃ ⊢
  omega

theorem takes_of_isParameter
    {used : List Token} {text : String}
    (h : IsParameter used text)
    (rest : List Token) :
    ∃ read, read.term = text ∧ Takes parameter (used ++ rest) read rest := by
  induction h generalizing rest with
  | @string _ text hstring =>
      cases hstring
      exact ⟨.quoted text, rfl, Nat.lt_succ_self _, by simp [parameter]⟩
  | @identifier _ text hidentifier =>
      obtain ⟨hkeyword⟩ := hidentifier
      exact ⟨.identifier text, rfl, Nat.lt_succ_self _, by simp [parameter, hkeyword]⟩
  | @expression ls os rs _ _ op _ hos _ ihleft ihright =>
      obtain ⟨left, rfl, hleft⟩ := ihleft (os ++ (rs ++ .closing :: rest))
      obtain ⟨right, rfl, hright⟩ := ihright (.closing :: rest)
      have hop := (reads_operator (os ++ (rs ++ .closing :: rest)) op _).2 ⟨os, rfl, hos⟩
      refine ⟨.operation left op right, rfl, ?_⟩
      have htakes := takes_operation hleft hop hright
      simpa using htakes

theorem reads_parameter : Reads (Reader.map Parameter.term parameter) IsParameter := by
  intro tokens text rest
  rw [takes_map]
  constructor
  · rintro ⟨read, htakes, rfl⟩
    exact isParameter_of_takes htakes
  · rintro ⟨used, rfl, hused⟩
    obtain ⟨read, hterm, htakes⟩ := takes_of_isParameter hused rest
    exact ⟨read, htakes, hterm⟩

end Parameters

theorem reads_applied
    {term : Reader Token String} {P : List Token → String → Prop}
    (h : Reads term P) :
    Reads (applied term) (IsApplied P) := by
  intro tokens predicate rest
  unfold applied
  rw [takes_map]
  constructor
  · rintro ⟨⟨name, terms⟩, htakes, rfl⟩
    obtain ⟨middle, hname, hterms⟩ := takes_andThen.1 htakes
    obtain ⟨us, rfl, hus⟩ := (reads_identifier tokens name middle).1 hname
    obtain ⟨ts, rfl, hts⟩ := (h.takes_enclosed (by decide)).1 hterms
    exact ⟨us ++ .opening :: (ts ++ [.closing]), by simp, IsApplied.mk hus hts⟩
  · rintro ⟨_, rfl, @⟨us, ts, name, terms, hus, hts⟩⟩
    refine ⟨(name, terms), takes_andThen.2 ⟨.opening :: (ts ++ .closing :: rest), ?_, ?_⟩, rfl⟩
    · exact (reads_identifier _ name _).2 ⟨us, by simp, hus⟩
    · exact (h.takes_enclosed (by decide)).2 ⟨ts, rfl, hts⟩

theorem reads_fact : Reads fact IsFact := by
  intro tokens found rest
  unfold fact
  rw [(reads_applied reads_quoted).takes_before_symbol]
  constructor
  · rintro ⟨used, rfl, hused⟩
    exact ⟨used ++ [.dot], by simp, IsFact.mk hused⟩
  · rintro ⟨_, rfl, @⟨used, _, hused⟩⟩
    exact ⟨used, by simp, hused⟩

theorem reads_predicate : Reads predicate IsPredicate :=
  reads_applied reads_parameter

theorem reads_rule : Reads rule IsRule := by
  intro tokens found rest
  unfold rule
  rw [takes_map]
  constructor
  · rintro ⟨⟨head, body⟩, htakes, rfl⟩
    obtain ⟨middle, hhead, hbody⟩ := takes_andThen.1 htakes
    obtain ⟨hs, rfl, hhs⟩ := (reads_applied reads_identifier tokens head middle).1 hhead
    obtain ⟨bs, rfl, hbs⟩ := (reads_predicate.takes_enclosed (by decide)).1 hbody
    exact ⟨hs ++ .arrow :: (bs ++ [.dot]), by simp, IsRule.mk hhs hbs⟩
  · rintro ⟨_, rfl, @⟨hs, bs, head, body, hhs, hbs⟩⟩
    refine ⟨(head, body), takes_andThen.2 ⟨.arrow :: (bs ++ .dot :: rest), ?_, ?_⟩, rfl⟩
    · exact (reads_applied reads_identifier _ head _).2 ⟨hs, by simp, hhs⟩
    · exact (reads_predicate.takes_enclosed (by decide)).2 ⟨bs, rfl, hbs⟩

theorem reads_query : Reads query IsQuery := by
  intro tokens found rest
  unfold query
  rw [reads_predicate.takes_before_symbol]
  constructor
  · rintro ⟨used, rfl, hused⟩
    exact ⟨used ++ [.question], by simp, IsQuery.mk hused⟩
  · rintro ⟨_, rfl, @⟨used, _, hused⟩⟩
    exact ⟨used, by simp, hused⟩

end Phrases

section Sections

variable {α : Type} {entry : Reader Token α} {P : List Token → α → Prop}
variable {keyword : String} {tokens rest : List Token} {entries : List α}

theorem takes_heading {u : Unit} :
    Takes (heading keyword) tokens u rest ↔ tokens = .word keyword :: .colon :: rest := by
  unfold heading
  rw [takes_before]
  constructor
  · rintro ⟨_, _, hword, hcolon⟩
    rw [takes_symbol.1 hword, takes_symbol.1 hcolon]
  · rintro rfl
    exact ⟨_, (), takes_symbol.2 rfl, takes_symbol.2 rfl⟩

/-- A section ends where no further entry stands. -/
theorem takes_sectionOf
    (h : entry.Reads P) :
    Takes (sectionOf keyword entry) tokens entries rest ↔
      entry.Refuses rest ∧ ∃ used, tokens = used ++ rest ∧ IsSection keyword P used entries := by
  unfold sectionOf
  rw [takes_map]
  constructor
  · rintro ⟨⟨_, entries⟩, htakes, rfl⟩
    obtain ⟨middle, hheading, hmany⟩ := takes_thenMany.1 htakes
    obtain ⟨hrefuses, used, rfl, hused⟩ := h.many_iff.1 hmany
    exact ⟨hrefuses, _, takes_heading.1 hheading, IsSection.mk hused⟩
  · rintro ⟨hrefuses, _, rfl, @⟨used, _, hused⟩⟩
    exact ⟨((), entries), takes_thenMany.2 ⟨used ++ rest, takes_heading.2 rfl,
      h.many_iff.2 ⟨hrefuses, used, rfl, hused⟩⟩, rfl⟩

theorem takes_filledSection
    (h : entry.Reads P) :
    Takes (filledSection keyword entry) tokens entries rest ↔
      entry.Refuses rest ∧ entries ≠ [] ∧
        ∃ used, tokens = used ++ rest ∧ IsSection keyword P used entries := by
  unfold filledSection
  rw [takes_map]
  constructor
  · rintro ⟨⟨first, others⟩, htakes, rfl⟩
    obtain ⟨middle, hfirst, hmany⟩ := takes_thenMany.1 htakes
    obtain ⟨_, _, hheading, hentry⟩ := takes_after.1 hfirst
    obtain ⟨phrase, rfl, hphrase⟩ := (h _ first middle).1 hentry
    obtain ⟨hrefuses, used, rfl, hused⟩ := h.many_iff.1 hmany
    refine ⟨hrefuses, List.cons_ne_nil _ _, _, ?_, IsSection.mk (Sequence.cons hphrase hused)⟩
    rw [takes_heading.1 hheading]
    simp
  · rintro ⟨hrefuses, hne, _, rfl, @⟨_, _, hused⟩⟩
    cases hused with
    | nil => exact absurd rfl hne
    | @cons phrase others first entries hphrase hothers =>
        have hfirst := (h (phrase ++ (others ++ rest)) first _).2 ⟨phrase, rfl, hphrase⟩
        refine ⟨(first, entries), takes_thenMany.2 ⟨others ++ rest, ?_, ?_⟩, rfl⟩
        · exact takes_after.2 ⟨_, (), takes_heading.2 (by simp), hfirst⟩
        · exact h.many_iff.2 ⟨hrefuses, others, rfl, hothers⟩

/-- The phrases start with a word that is no keyword. -/
def Named (P : List Token → α → Prop) : Prop :=
  ∀ used a, P used a → ∃ text others, used = .word text :: others ∧ text ∉ keywords

theorem named_applied {P : List Token → String → Prop} : Named (IsApplied P) := by
  rintro _ _ ⟨⟨hkeyword⟩, _⟩
  exact ⟨_, _, rfl, hkeyword⟩

theorem named_fact : Named IsFact := by
  rintro _ _ ⟨hfact⟩
  obtain ⟨text, others, rfl, hkeyword⟩ := named_applied _ _ hfact
  exact ⟨text, _, rfl, hkeyword⟩

theorem named_rule : Named IsRule := by
  rintro _ _ ⟨hhead, _⟩
  obtain ⟨text, others, rfl, hkeyword⟩ := named_applied _ _ hhead
  exact ⟨text, _, rfl, hkeyword⟩

/-- No further entry stands where the next section starts. -/
theorem Named.refuses_section
    {β : Type} {Q : List Token → β → Prop} {next : List β}
    (h : Named P)
    (hentry : entry.Reads P)
    (hkeyword : keyword ∈ keywords)
    (hsection : IsSection keyword Q tokens next)
    (rest : List Token) :
    entry.Refuses (tokens ++ rest) := by
  rw [refuses_iff]
  intro a others htakes
  obtain ⟨⟩ := hsection
  obtain ⟨used, heq, hused⟩ := (hentry _ a others).1 htakes
  obtain ⟨text, _, rfl, hnot⟩ := h used a hused
  obtain rfl : keyword = text := Token.word.inj (List.cons.inj heq).1
  exact hnot hkeyword

/-- The reader of programs takes all of the tokens if and only if they are a program. -/
theorem takes_program_iff {found : Program} :
    Takes program tokens found [] ↔ IsProgram tokens found := by
  unfold program
  rw [takes_map]
  have hscheme : Reads scheme IsScheme := reads_applied reads_identifier
  constructor
  · rintro ⟨⟨schemes, facts, rules, queries⟩, htakes, rfl⟩
    obtain ⟨_, hschemes, htakes⟩ := takes_andThen.1 htakes
    obtain ⟨_, hfacts, htakes⟩ := takes_andThen.1 htakes
    obtain ⟨_, hrules, hqueries⟩ := takes_andThen.1 htakes
    obtain ⟨_, hne, ss, rfl, hss⟩ := (takes_filledSection hscheme).1 hschemes
    obtain ⟨_, fs, rfl, hfs⟩ := (takes_sectionOf reads_fact).1 hfacts
    obtain ⟨_, rs, rfl, hrs⟩ := (takes_sectionOf reads_rule).1 hrules
    obtain ⟨_, hne', qs, rfl, hqs⟩ := (takes_filledSection reads_query).1 hqueries
    rw [List.append_nil]
    exact IsProgram.mk hss hne hfs hrs hqs hne'
  -- A section ends where the keyword of the next one stands, which starts no entry.
  · rintro @⟨ss, fs, rs, qs, schemes, facts, queries, rules, hss, hne, hfs, hrs, hqs, hne'⟩
    have hqueries := (takes_filledSection reads_query).2
      ⟨refuses_nil, hne', qs, (List.append_nil qs).symm, hqs⟩
    have hrules := (takes_sectionOf reads_rule).2
      ⟨named_rule.refuses_section reads_rule (by decide) hqs [], rs, rfl, hrs⟩
    have hfacts := (takes_sectionOf reads_fact).2
      ⟨named_fact.refuses_section reads_fact (by decide) hrs qs, fs, rfl, hfs⟩
    have hschemes := (takes_filledSection hscheme).2
      ⟨named_applied.refuses_section hscheme (by decide) hfs (rs ++ qs), hne, ss, rfl, hss⟩
    rw [List.append_nil] at hrules
    exact ⟨(schemes, facts, rules, queries), takes_andThen.2 ⟨_, hschemes,
      takes_andThen.2 ⟨_, hfacts, takes_andThen.2 ⟨_, hrules, hqueries⟩⟩⟩, rfl⟩

theorem takes_query_iff {found : Predicate} :
    Takes query tokens found [] ↔ IsQuery tokens found := by
  rw [reads_query]
  simp

end Sections

section Apartness

open Token

variable {tokens : List Token}

theorem IsIdentifier.guarded
    {text : String}
    (h : IsIdentifier tokens text) :
    Guarded tokens := by
  cases h
  exact guarded_single _

theorem IsString.guarded
    {text : String}
    (h : IsString tokens text) :
    Guarded tokens := by
  cases h
  exact guarded_single _

theorem IsOperator.exists_eq
    {op : Operator}
    (h : IsOperator tokens op) :
    ∃ token, tokens = [token] ∧ ¬ token.IsQuoted := by
  cases h <;> exact ⟨_, rfl, not_false⟩

theorem IsParameter.guarded
    {text : String}
    (h : IsParameter tokens text) :
    Guarded tokens := by
  induction h with
  | string hstring => exact hstring.guarded
  | identifier hidentifier => exact hidentifier.guarded
  | @expression ls os rs _ _ _ _ hos _ ihleft ihright =>
      intro after hafter _
      obtain ⟨token, rfl, htoken⟩ := hos.exists_eq
      have hright : Apart (rs ++ .closing :: after) := ihright.append_cons not_false hafter
      have hleft : Apart (ls ++ token :: (rs ++ .closing :: after)) :=
        ihleft.append_cons htoken hright
      have hopening : Apart (.opening :: (ls ++ token :: (rs ++ .closing :: after))) :=
        hleft.cons not_false
      simpa using hopening

theorem guarded_listed
    {α : Type} {P : List Token → α → Prop} {items : List α}
    (hP : ∀ used item, P used item → Guarded used)
    (h : Listed .comma P tokens items) :
    Guarded tokens := by
  induction h with
  | one hphrase => exact hP _ _ hphrase
  | more hphrase _ ih =>
      intro after hafter hhead
      rw [List.append_assoc]
      exact (hP _ _ hphrase).append_cons not_false (ih after hafter hhead)

theorem free_sequence
    {α : Type} {P : List Token → α → Prop} {items : List α}
    (hP : ∀ used item, P used item → Free used)
    (h : Sequence P tokens items) :
    Free tokens := by
  induction h with
  | nil => exact fun after hafter => hafter
  | cons hphrase _ ih =>
      intro after hafter
      rw [List.append_assoc]
      exact hP _ _ hphrase _ (ih after hafter)

theorem free_applied
    {P : List Token → String → Prop}
    (hP : ∀ used text, P used text → Guarded used)
    {predicate : Predicate}
    (h : IsApplied P tokens predicate) :
    Free tokens := by
  obtain @⟨us, ts, _, _, hname, hterms⟩ := h
  intro after hafter
  have hclosed : Apart (ts ++ .closing :: after) :=
    (guarded_listed hP hterms).append_cons not_false hafter
  have hopened : Apart (us ++ .opening :: (ts ++ .closing :: after)) :=
    hname.guarded.append_cons not_false hclosed
  simpa using hopened

theorem free_predicate
    {predicate : Predicate}
    (h : IsPredicate tokens predicate) :
    Free tokens :=
  free_applied (fun _ _ hparameter => hparameter.guarded) h

theorem IsFact.free
    {fact : Predicate}
    (h : IsFact tokens fact) :
    Free tokens := by
  obtain ⟨hfact⟩ := h
  exact (free_applied (fun _ _ hstring => hstring.guarded) hfact).guarded.free_append not_false

theorem IsRule.free
    {rule : Rule}
    (h : IsRule tokens rule) :
    Free tokens := by
  obtain @⟨hs, bs, _, _, hhead, hbody⟩ := h
  intro after hafter
  have hfree := free_applied (fun _ _ hidentifier => hidentifier.guarded) hhead
  have hlist := guarded_listed (fun _ _ hpredicate => (free_predicate hpredicate).guarded) hbody
  have hended : Apart (bs ++ .dot :: after) := hlist.append_cons not_false hafter
  have hwhole : Apart (hs ++ .arrow :: (bs ++ .dot :: after)) :=
    hfree.guarded.append_cons not_false hended
  simpa using hwhole

theorem IsQuery.free
    {query : Predicate}
    (h : IsQuery tokens query) :
    Free tokens := by
  obtain ⟨hquery⟩ := h
  exact (free_predicate hquery).guarded.free_append not_false

theorem free_section
    {α : Type} {P : List Token → α → Prop} {keyword : String} {entries : List α}
    (hP : ∀ used entry, P used entry → Free used)
    (h : IsSection keyword P tokens entries) :
    Free tokens := by
  obtain @⟨ts, _, hentries⟩ := h
  intro after hafter
  have hcolon : Apart (.colon :: (ts ++ after)) :=
    (free_sequence hP hentries after hafter).cons not_false
  exact hcolon.cons not_false

theorem apart_program
    {program : Program}
    (h : IsProgram tokens program) :
    Apart tokens := by
  obtain ⟨hss, _, hfs, hrs, hqs, _⟩ := h
  have hqueries := free_section (fun _ _ hquery => hquery.free) hqs [] List.IsChain.nil
  rw [List.append_nil] at hqueries
  refine free_section (fun _ _ hscheme => ?_) hss _ ?_
  · exact free_applied (fun _ _ hidentifier => hidentifier.guarded) hscheme
  · refine free_section (fun _ _ hfact => hfact.free) hfs _ ?_
    exact free_section (fun _ _ hrule => hrule.free) hrs _ hqueries

theorem apart_query
    {query : Predicate}
    (h : IsQuery tokens query) :
    Apart tokens := by
  have hquery := h.free [] List.IsChain.nil
  rwa [List.append_nil] at hquery

end Apartness

section Texts

variable {text : String}

/-- A text is read as a whole if and only if it is spelled by tokens that the reader takes. -/
theorem whole?_eq_some_iff
    {α : Type} {p : Reader Token α} {P : List Token → α → Prop}
    (htakes : ∀ tokens a, p.Takes tokens a [] ↔ P tokens a)
    (hapart : ∀ tokens a, P tokens a → Token.Apart tokens)
    {a : α} :
    whole? p text = some a ↔ ∃ tokens, Token.Spelled tokens text.toList ∧ P tokens a := by
  unfold whole?
  constructor
  · intro h
    cases hscan : Token.scan? text.toList with
    | none =>
        rw [hscan] at h
        cases h
    | some tokens =>
        rw [hscan] at h
        simp only at h
        split at h
        · rename_i found hlt hread
          cases h
          exact ⟨tokens, Token.spelled_of_scan? hscan, (htakes tokens a).1 ⟨hlt, hread⟩⟩
        · cases h
  · rintro ⟨tokens, hspelled, hphrase⟩
    obtain ⟨hlt, hread⟩ := (htakes tokens a).2 hphrase
    simp only [Token.scan?_of_spelled hspelled (hapart tokens a hphrase), hread]

theorem whole?_program_iff {found : Program} :
    whole? program text = some found ↔
      ∃ tokens, Token.Spelled tokens text.toList ∧ IsProgram tokens found :=
  whole?_eq_some_iff (fun _ _ => takes_program_iff) fun _ _ => apart_program

theorem whole?_query_iff {found : Predicate} :
    whole? query text = some found ↔
      ∃ tokens, Token.Spelled tokens text.toList ∧ IsQuery tokens found :=
  whole?_eq_some_iff (fun _ _ => takes_query_iff) fun _ _ => apart_query

end Texts

end Grammar

theorem Program.parse_eq_ok_iff
    {text : String} {program : Program} :
    parse text = .ok program ↔ Grammar.whole? Grammar.program text = some program := by
  unfold parse
  cases Grammar.whole? Grammar.program text <;> simp

theorem Predicate.parseQuery_eq_ok_iff
    {text : String} {query : Predicate} :
    parseQuery text = .ok query ↔ Grammar.whole? Grammar.query text = some query := by
  unfold parseQuery
  cases Grammar.whole? Grammar.query text <;> simp

/-- A text is read as a program or as a query if and only if the grammar derives it from tokens that
spell the text, with any amount of layout before, between and after them. -/
theorem parsing_follows_grammar :
    (∀ text program, Program.parse text = .ok program ↔
      ∃ tokens, Token.Spelled tokens text.toList ∧ Grammar.IsProgram tokens program) ∧
    ∀ text query, Predicate.parseQuery text = .ok query ↔
      ∃ tokens, Token.Spelled tokens text.toList ∧ Grammar.IsQuery tokens query := by
  constructor
  · intro text program
    rw [Program.parse_eq_ok_iff, Grammar.whole?_program_iff]
  · intro text query
    rw [Predicate.parseQuery_eq_ok_iff, Grammar.whole?_query_iff]

/-- A query with comments between its tokens, and an expression without its parentheses. -/
example : Predicate.parseQuery "S( (x+#| y |#(y*z)) )? # end" = .ok ⟨"S", ["x+y*z"]⟩ := by
  rw [Predicate.parseQuery_eq_ok_iff]
  decide +kernel

end Language

end Datalog
