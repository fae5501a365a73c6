import Datalog.Proofs.Source.Language
import Datalog.Proofs.Source.Mirroring

/-!
# The grammar as parsing expressions, and the parser

**Productions.** Each rule of the grammar mirrors one reader of the parser, on every text.

**Results.** The rules read a text exactly as the parser does, as a program (`reads_program_iff`)
and as a query (`reads_queryLine_iff`): they match where the parser reads something and nowhere
else, and the pairs of their match convert to what it reads.
-/

namespace Datalog

section Recognition

open Parsing Expression

namespace Grammar

open Reader

section Productions

variable {α : Type} {whole : List Char}

/-- There is one pair, and it converts to what is read. -/
def Single (convert : Pair RuleName → Option α) (pairs : List (Pair RuleName)) (a : α) : Prop :=
  ∃ pair, pairs = [pair] ∧ convert pair = some a

theorem eq_node_of_text?
    {expected : RuleName} {pair : Pair RuleName} {text : String}
    (h : pair.text? expected = some text) :
    ∃ inner, pair = .node expected text inner := by
  obtain ⟨name, found, inner⟩ := pair
  rw [Pair.text?] at h
  obtain ⟨rfl, htext⟩ := Option.ite_none_right_eq_some.1 h
  exact ⟨inner, by rw [Option.some.inj htext]⟩

theorem mapM_of_sequence
    {convert : Pair RuleName → Option α} {pairs : List (Pair RuleName)} {items : List α}
    (h : Sequence (Single convert) pairs items) :
    pairs.mapM convert = some items := by
  induction h with
  | nil => rfl
  | cons hfirst _ ih =>
      obtain ⟨pair, rfl, hpair⟩ := hfirst
      simp [hpair, ih]

section Tokens

/-- The pair of one operator. -/
abbrev OneOperator (pairs : List (Pair RuleName)) (read : Operator) : Prop :=
  Single (Pair.text? .operator) pairs read.text

theorem mirrorsAt_identifier (cs : List Char) :
    MirrorsAt whole [.call .identifier] identifier (Single (Pair.text? .identifier)) cs := by
  constructor
  · intro name tokens htakes
    obtain ⟨_, htokens, ⟨hkeyword⟩⟩ := (reads_identifier _ _ _).1 htakes
    obtain ⟨after, hfirst, hafter, hend⟩ := Token.first?_of_leading htokens
    obtain ⟨c, rest, hskip, hread⟩ := Token.exists_of_first? hfirst
    obtain ⟨halpha, rfl, rfl⟩ := Token.eq_of_read?_word hread
    rw [hskip]
    exact ⟨_, _, matches_identifier halpha hkeyword, Prod.ext hafter hend, _, rfl, rfl⟩
  · intro hnone
    refine identifier_none fun c rest hskip halpha => ?_
    by_contra hkeyword
    have hfirst := (Token.first?_of_skip_eq_cons hskip).trans (Token.read?_of_isAlpha halpha)
    rw [Token.leading_of_some hfirst] at hnone
    exact refuses_iff.1 hnone _ _ ((reads_identifier _ _ _).2 ⟨_, rfl, IsIdentifier.word hkeyword⟩)

theorem mirrorsAt_quoted (cs : List Char) :
    MirrorsAt whole [.call .string] quoted (Single (Pair.text? .string)) cs := by
  constructor
  · intro text tokens htakes
    obtain ⟨_, htokens, ⟨⟩⟩ := (reads_quoted _ _ _).1 htakes
    obtain ⟨after, hfirst, hafter, hend⟩ := Token.first?_of_leading htokens
    obtain ⟨c, rest, hskip, hread⟩ := Token.exists_of_first? hfirst
    obtain ⟨body, rfl, htail, rfl⟩ := Token.eq_of_read?_quoted hread
    rw [hskip]
    exact ⟨_, after, matches_string htail, Prod.ext hafter hend, _, rfl, rfl⟩
  · intro hnone
    refine string_none fun rest hskip => ?_
    by_contra htail
    obtain ⟨⟨body, after⟩, htail⟩ := Option.ne_none_iff_exists'.1 htail
    have hfirst := (Token.first?_of_skip_eq_cons hskip).trans (Token.read?_of_quotedTail? htail)
    rw [Token.leading_of_some hfirst] at hnone
    exact refuses_iff.1 hnone _ _ ((reads_quoted _ _ _).2 ⟨_, rfl, IsString.quoted _⟩)

theorem mirrorsAt_operator (cs : List Char) :
    MirrorsAt whole [.call .operator] operator OneOperator cs := by
  constructor
  · intro op tokens htakes
    obtain ⟨used, htokens, hop⟩ := (reads_operator _ _ _).1 htakes
    cases hop with
    | plus =>
        obtain ⟨after, hskip, hafter⟩ := Token.skip_of_leading htokens
        rw [hskip]
        exact ⟨_, after, .call (.either_first (.literal "+" after)), hafter, _, rfl, rfl⟩
    | times =>
        obtain ⟨after, hskip, hafter⟩ := Token.skip_of_leading htokens
        rw [hskip]
        exact ⟨_, after, .call (.either_second (.literal_none (by simp [Token.characters]))
          (.literal "*" after)), hafter, _, rfl, rfl⟩
  · intro hnone
    have hrefuses : ∀ token op, IsOperator [token] op →
        (symbol token).Refuses (Token.leading cs).1 := fun token op hop =>
      refuses_iff.2 fun _ tokens htakes =>
        refuses_iff.1 hnone op tokens ((reads_operator _ _ _).2 ⟨_, takes_symbol.1 htakes, hop⟩)
    refine call_none rfl (.either_second ?_ ?_)
    · exact (mirrorsAt_literal "+" .plus rfl (fun rest => ⟨'+', rest, rfl, rfl⟩) cs).refuses
        (hrefuses .plus .plus .plus)
    · exact (mirrorsAt_literal "*" .star rfl (fun rest => ⟨'*', rest, rfl, rfl⟩) cs).refuses
        (hrefuses .star .times .times)

end Tokens

/-- Something, and items of one kind between two symbols after it. -/
theorem mirrorsAt_enclosed
    {β : Type} {p : Reader Token α} {q : Reader Token β}
    {P : List (Pair RuleName) → α → Prop} {Q : List (Pair RuleName) → β → Prop}
    {first front item between back : Expression RuleName}
    {frontToken betweenToken backToken : Token} {cs : List Char}
    (h : MirrorsAt whole [first] p P cs)
    (hfront : ∀ cs, MirrorsAt whole [front] (symbol frontToken) NoPairs cs)
    (hitem : ∀ cs, MirrorsAt whole [item] q Q cs)
    (hbetween : ∀ cs, MirrorsAt whole [between] (symbol betweenToken) NoPairs cs)
    (hback : ∀ cs, MirrorsAt whole [back] (symbol backToken) NoPairs cs) :
    MirrorsAt whole [first, front, item, zeroOrMore (series [between, item]), back]
      (Reader.andThen p
        (Reader.before (Reader.after (symbol frontToken) (separated (symbol betweenToken) q))
          (symbol backToken)))
      (InTurn P (Sequence Q)) cs := by
  have hne : ∀ (e : Expression RuleName) es, e :: es ≠ [] := List.cons_ne_nil
  have hfollowing : ∀ cs, MirrorsAt whole ([between] ++ [item])
      (Reader.after (symbol betweenToken) q) Q cs := fun cs =>
    (hbetween cs).loosely.after (hne _ _) (hne _ _) fun rest _ => hitem rest
  have hlist : ∀ cs, MirrorsAt whole ([item] ++ [zeroOrMore (series [between, item])])
      (separated (symbol betweenToken) q) (Sequence Q) cs := by
    intro cs
    refine ((hitem cs).thenMany (hne _ _) hfollowing).map ?_
    rintro _ ⟨a, items⟩ ⟨ps, qs, rfl, hps, hqs⟩
    exact .cons hps hqs
  have hopened : ∀ cs, MirrorsAt whole ([front] ++ [item, zeroOrMore (series [between, item])])
      (Reader.after (symbol frontToken) (separated (symbol betweenToken) q)) (Sequence Q) cs :=
    fun cs => (hfront cs).loosely.after (hne _ _) (hne _ _) fun rest _ => hlist rest
  have hclosed : ∀ cs, MirrorsAt whole
      ([front, item, zeroOrMore (series [between, item])] ++ [back])
      (Reader.before (Reader.after (symbol frontToken) (separated (symbol betweenToken) q))
        (symbol backToken)) (Sequence Q) cs := fun cs =>
    (hopened cs).before (hne _ _) (hne _ _) fun rest _ => hback rest
  exact h.loosely.andThen (hne _ _) (hne _ _) fun rest _ => hclosed rest

section Symbols

variable (cs : List Char)

theorem mirrorsAt_opening : MirrorsAt whole [.literal "("] (symbol .opening) NoPairs cs :=
  mirrorsAt_literal "(" .opening rfl (fun rest => ⟨'(', rest, rfl, rfl⟩) cs

theorem mirrorsAt_closing : MirrorsAt whole [.literal ")"] (symbol .closing) NoPairs cs :=
  mirrorsAt_literal ")" .closing rfl (fun rest => ⟨')', rest, rfl, rfl⟩) cs

theorem mirrorsAt_comma : MirrorsAt whole [.literal ","] (symbol .comma) NoPairs cs :=
  mirrorsAt_literal "," .comma rfl (fun rest => ⟨',', rest, rfl, rfl⟩) cs

theorem mirrorsAt_dot : MirrorsAt whole [.literal "."] (symbol .dot) NoPairs cs :=
  mirrorsAt_literal "." .dot rfl (fun rest => ⟨'.', rest, rfl, rfl⟩) cs

theorem mirrorsAt_question : MirrorsAt whole [.literal "?"] (symbol .question) NoPairs cs :=
  mirrorsAt_literal "?" .question rfl (fun rest => ⟨'?', rest, rfl, rfl⟩) cs

theorem mirrorsAt_arrow : MirrorsAt whole [.literal ":-"] (symbol .arrow) NoPairs cs :=
  mirrorsAt_literal ":-" .arrow rfl (fun rest => ⟨':', '-' :: rest, rfl, rfl⟩) cs

end Symbols

section Parameters

/-- Two parameters around an operator, in parentheses. -/
def operation : Reader Token Parameter :=
  Reader.map (fun (left, op, right) => .operation left op right)
    (Reader.before
      (Reader.after (symbol .opening)
        (Reader.andThen parameter (Reader.andThen operator parameter)))
      (symbol .closing))

theorem takes_operation_iff
    {tokens rest : List Token} {read : Parameter} :
    operation.Takes tokens read rest ↔
      ∃ tokens' rest₁ rest₂ left op right, tokens = .opening :: tokens' ∧
        Takes parameter tokens' left rest₁ ∧ Takes operator rest₁ op rest₂ ∧
        Takes parameter rest₂ right (.closing :: rest) ∧ read = .operation left op right := by
  unfold operation
  rw [takes_map]
  constructor
  · rintro ⟨⟨left, op, right⟩, htakes, rfl⟩
    obtain ⟨_, _, htakes, hclosing⟩ := takes_before.1 htakes
    obtain ⟨tokens', _, hopening, htakes⟩ := takes_after.1 htakes
    obtain ⟨rest₁, hleft, htakes⟩ := takes_andThen.1 htakes
    obtain ⟨rest₂, hop, hright⟩ := takes_andThen.1 htakes
    rw [takes_symbol.1 hclosing] at hright
    exact ⟨tokens', rest₁, rest₂, left, op, right, takes_symbol.1 hopening, hleft, hop, hright, rfl⟩
  · rintro ⟨tokens', rest₁, rest₂, left, op, right, rfl, hleft, hop, hright, rfl⟩
    have hbetween := takes_andThen.2 ⟨rest₁, hleft, takes_andThen.2 ⟨rest₂, hop, hright⟩⟩
    have hopening : (symbol .opening).Takes (.opening :: tokens') () tokens' := takes_symbol.2 rfl
    have hopened := takes_after.2 ⟨tokens', (), hopening, hbetween⟩
    exact ⟨(left, op, right), takes_before.2 ⟨_, (), hopened, takes_symbol.2 rfl⟩, rfl⟩

/-- A parameter is read as the first of its three forms. -/
theorem takes_parameter_iff
    {tokens rest : List Token} {read : Parameter} :
    Takes parameter tokens read rest ↔
      (Reader.orElse (Reader.map Parameter.quoted quoted)
        (Reader.orElse (Reader.map Parameter.identifier identifier) operation)).Takes
          tokens read rest := by
  constructor
  · rintro ⟨_, heq⟩
    fun_induction parameter tokens generalizing read rest with
    | case1 text after =>
        cases heq
        exact ⟨Nat.lt_succ_self _, rfl⟩
    | case3 text after hkeyword =>
        cases heq
        have hidentifier : identifier.Takes (.word text :: after) text after :=
          (reads_identifier _ _ _).2 ⟨_, rfl, IsIdentifier.word (by simpa using hkeyword)⟩
        exact takes_orElse.2 (Or.inr ⟨rfl, takes_orElse.2
          (Or.inl (takes_map.2 ⟨text, hidentifier, rfl⟩))⟩)
    | case7 after left rest₁ h₁ hleft op rest₂ h₂ hop right rest₃ h₃ hright =>
        cases heq
        refine takes_orElse.2 (Or.inr ⟨rfl, takes_orElse.2 (Or.inr ⟨rfl, ?_⟩)⟩)
        exact takes_operation_iff.2 ⟨after, rest₁, rest₂, left, op, right, rfl, ⟨h₁, hleft⟩,
          ⟨h₂, hop⟩, ⟨h₃, hright⟩, rfl⟩
    | case2 | case4 | case5 | case6 | case8 | case9 => cases heq
  · intro htakes
    rcases takes_orElse.1 htakes with hfirst | ⟨_, hothers⟩
    · obtain ⟨text, hquoted, rfl⟩ := takes_map.1 hfirst
      obtain ⟨_, rfl, ⟨⟩⟩ := (reads_quoted _ _ _).1 hquoted
      exact ⟨Nat.lt_succ_self _, by simp [parameter]⟩
    · rcases takes_orElse.1 hothers with hsecond | ⟨_, hoperation⟩
      · obtain ⟨text, hidentifier, rfl⟩ := takes_map.1 hsecond
        obtain ⟨_, rfl, ⟨hkeyword⟩⟩ := (reads_identifier _ _ _).1 hidentifier
        exact ⟨Nat.lt_succ_self _, by simp [parameter, hkeyword]⟩
      · obtain ⟨tokens', rest₁, rest₂, left, op, right, rfl, hleft, hop, hright, rfl⟩ :=
          takes_operation_iff.1 hoperation
        exact takes_operation hleft hop hright

/-- The pair of one parameter. -/
abbrev OneParameter (pairs : List (Pair RuleName)) (read : Parameter) : Prop :=
  Single Pair.parameter? pairs read.term

/-- What is inside a pair of a parameter that is read. -/
def InParameter (pairs : List (Pair RuleName)) (read : Parameter) : Prop :=
  ∀ used, Pair.parameter? (.node .parameter used pairs) = some read.term

theorem mirrorsAt_stringParameter (cs : List Char) :
    MirrorsAt whole [.call .string] (Reader.map Parameter.quoted quoted) InParameter cs := by
  refine (mirrorsAt_quoted cs).map ?_
  rintro _ text ⟨pair, rfl, hpair⟩ used
  obtain ⟨inner, rfl⟩ := eq_node_of_text? hpair
  rfl

theorem mirrorsAt_identifierParameter (cs : List Char) :
    MirrorsAt whole [.call .identifier] (Reader.map Parameter.identifier identifier) InParameter
      cs := by
  refine (mirrorsAt_identifier cs).map ?_
  rintro _ text ⟨pair, rfl, hpair⟩ used
  obtain ⟨inner, rfl⟩ := eq_node_of_text? hpair
  rfl

/-- An expression, if its sides are read as they match. -/
theorem mirrorsAt_expression
    {cs : List Char}
    (h : ∀ rest, (Token.leading rest).1.length < (Token.leading cs).1.length →
      MirrorsAt whole [.call .parameter] parameter OneParameter rest) :
    MirrorsAt whole [.call .expression] operation InParameter cs := by
  have hne : ∀ (e : Expression RuleName) es, e :: es ≠ [] := List.cons_ne_nil
  have hbetween : ∀ rest, (Token.leading rest).1.length < (Token.leading cs).1.length →
      MirrorsAt whole ([.call .parameter] ++ ([.call .operator] ++ [.call .parameter]))
        (Reader.andThen parameter (Reader.andThen operator parameter))
        (InTurn OneParameter (InTurn OneOperator OneParameter)) rest :=
    fun rest hless => (h rest hless).loosely.andThen (hne _ _) (hne _ _) fun rest' hless' =>
      (mirrorsAt_operator rest').loosely.andThen (hne _ _) (hne _ _) fun rest'' hless'' =>
        h rest'' (by omega)
  have hopened := (mirrorsAt_opening cs).loosely.after (hne _ _) (hne _ _) hbetween
  have hclosed := hopened.before (hne _ _) (hne _ _) fun rest _ => mirrorsAt_closing rest
  have hread : MirrorsAt whole
      [.literal "(", .call .parameter, .call .operator, .call .parameter, .literal ")"] operation
      (fun pairs read => ∀ used, InParameter [.node .expression used pairs] read) cs := by
    refine hclosed.map ?_
    rintro _ ⟨left, op, right⟩ ⟨_, _, rfl, ⟨l, rfl, hl⟩, _, _, rfl, ⟨o, rfl, ho⟩, r, rfl, hr⟩
    intro used used'
    simp [Pair.parameter?, hl, ho, hr, Parameter.term]
  exact hread.call rfl rfl fun used _ _ hinner => hinner used

theorem mirrorsAt_parameter (cs : List Char) :
    MirrorsAt whole [.call .parameter] parameter OneParameter cs := by
  -- The induction is on the tokens: an expression reads its sides on fewer of them.
  induction hlength : (Token.leading cs).1.length using Nat.strong_induction_on generalizing cs with
  | _ n ih =>
      have hexpression : MirrorsAt whole [.call .expression] operation InParameter cs :=
        mirrorsAt_expression fun rest hless => ih _ (by omega) rest rfl
      have hchoice := (mirrorsAt_stringParameter cs).orElse
        ((mirrorsAt_identifierParameter cs).orElse hexpression)
      refine (hchoice.congr fun _ _ => takes_parameter_iff).call rfl rfl ?_
      exact fun used inner read hinner => ⟨_, rfl, hinner used⟩

end Parameters

section Entries

variable {cs : List Char}

theorem mirrorsAt_application
    {item : RuleName} {term : Reader Token String} {term? : Pair RuleName → Option String}
    (h : ∀ cs, MirrorsAt whole [.call item] term (Single term?) cs) :
    MirrorsAt whole item.application (applied term)
      (fun pairs found => Pair.named? term? pairs = some found) cs := by
  have henclosed := mirrorsAt_enclosed (mirrorsAt_identifier cs) mirrorsAt_opening h mirrorsAt_comma
    mirrorsAt_closing
  refine henclosed.map ?_
  rintro _ ⟨name, terms⟩ ⟨_, ts, rfl, ⟨pair, rfl, hpair⟩, hts⟩
  simp [Pair.named?, hpair, mapM_of_sequence hts]

theorem mirrorsAt_scheme (cs : List Char) :
    MirrorsAt whole [.call .scheme] scheme (Single Pair.scheme?) cs :=
  (mirrorsAt_application mirrorsAt_identifier).call rfl rfl fun _ _ _ hinner => ⟨_, rfl, hinner⟩

theorem mirrorsAt_headPredicate (cs : List Char) :
    MirrorsAt whole [.call .headPredicate] (applied identifier) (Single Pair.headPredicate?) cs :=
  (mirrorsAt_application mirrorsAt_identifier).call rfl rfl fun _ _ _ hinner => ⟨_, rfl, hinner⟩

theorem mirrorsAt_predicate (cs : List Char) :
    MirrorsAt whole [.call .predicate] predicate (Single Pair.predicate?) cs := by
  have hterm : ∀ cs, MirrorsAt whole [.call .parameter] (Reader.map Parameter.term parameter)
      (Single Pair.parameter?) cs := fun cs => (mirrorsAt_parameter cs).map fun _ _ hpairs => hpairs
  exact (mirrorsAt_application hterm).call rfl rfl fun _ _ _ hinner => ⟨_, rfl, hinner⟩

theorem mirrorsAt_fact (cs : List Char) :
    MirrorsAt whole [.call .fact] fact (Single Pair.fact?) cs := by
  have happlied : MirrorsAt whole (RuleName.application .string ++ [.literal "."]) fact
      (fun pairs found => Pair.named? (Pair.text? .string) pairs = some found) cs :=
    (mirrorsAt_application mirrorsAt_quoted).before (List.cons_ne_nil _ _) (List.cons_ne_nil _ _)
      fun rest _ => mirrorsAt_dot rest
  exact happlied.call rfl rfl fun _ _ _ hinner => ⟨_, rfl, hinner⟩

theorem mirrorsAt_rule (cs : List Char) :
    MirrorsAt whole [.call .rule] rule (Single Pair.rule?) cs := by
  have hread : MirrorsAt whole
      [.call .headPredicate, .literal ":-", .call .predicate,
        zeroOrMore (series [.literal ",", .call .predicate]), .literal "."] rule
      (fun pairs found => ∀ used, Pair.rule? (.node .rule used pairs) = some found) cs := by
    refine (mirrorsAt_enclosed (mirrorsAt_headPredicate cs) mirrorsAt_arrow mirrorsAt_predicate
      mirrorsAt_comma mirrorsAt_dot).map ?_
    rintro _ ⟨head, body⟩ ⟨_, bs, rfl, ⟨pair, rfl, hpair⟩, hbs⟩ used
    simp [Pair.rule?, Pair.inner?, hpair, mapM_of_sequence hbs]
  exact hread.call rfl rfl fun used _ _ hinner => ⟨_, rfl, hinner used⟩

theorem mirrorsAt_query (cs : List Char) :
    MirrorsAt whole [.call .query] query (Single Pair.query?) cs := by
  have hquery : MirrorsAt whole ([.call .predicate] ++ [.literal "?"]) query
      (Single Pair.predicate?) cs :=
    (mirrorsAt_predicate cs).before (List.cons_ne_nil _ _) (List.cons_ne_nil _ _)
      fun rest _ => mirrorsAt_question rest
  refine hquery.call rfl rfl ?_
  rintro used _ found ⟨pair, rfl, hpair⟩
  exact ⟨_, rfl, hpair⟩

end Entries

section Sections

variable {keyword : String} {cs : List Char}

theorem matches_heading
    {after rest : List Char}
    (hkeyword : Layout.skip cs = keyword.toList ++ after)
    (hcolon : Layout.skip after = ':' :: rest) :
    grammarRules.Matches whole .spaced (series [.literal keyword, .literal ":"])
      (Layout.skip cs) (some ([], rest)) := by
  have hfirst : grammarRules.Matches whole .spaced (series [.literal keyword])
      (Layout.skip cs) (some ([], after)) := hkeyword ▸ .literal keyword after
  have hsecond : grammarRules.Matches whole .spaced (series [.literal ":"])
      (Layout.skip after) (some ([], rest)) := hcolon ▸ .literal ":" rest
  exact matches_append (List.cons_ne_nil _ _) (List.cons_ne_nil _ _) hfirst hsecond

theorem endsWord_of_skip
    {after rest : List Char}
    (h : Layout.skip after = ':' :: rest) :
    Token.EndsWord after := by
  intro c hc
  obtain ⟨tail, rfl⟩ := List.head?_eq_some_iff.1 hc
  rcases (Layout.before_skip (c :: tail)).head_cases with heq | hblank | rfl
  · rw [h] at heq
    rw [(List.cons.inj heq).1]
    rfl
  · simp only [Layout.isBlank, Bool.or_eq_true, beq_iff_eq] at hblank
    rcases hblank with ((rfl | rfl) | rfl) | rfl <;> rfl
  · rfl

theorem leading_keyword
    {after : List Char}
    (h : keyword ∈ keywords)
    (hskip : Layout.skip cs = keyword.toList ++ after)
    (hends : Token.EndsWord after) :
    (Token.leading cs).1 = .word keyword :: (Token.leading after).1 := by
  obtain ⟨c, rest, htext, hread⟩ := (proper_keyword h).read?_eq_some hends
  have hfirst : Token.first? cs = some (.word keyword, after) :=
    (Token.first?_of_skip_eq_cons (hskip.trans htext)).trans hread
  rw [Token.leading_of_some hfirst]

/-- After a colon no token starts, or the colon is a token. -/
theorem leading_colon
    {after rest : List Char}
    (h : Layout.skip after = ':' :: rest) :
    (Token.leading rest).1 = [] ∨
      (Token.leading after).1 = .colon :: (Token.leading rest).1 := by
  by_cases hhyphen : rest.head? = some '-'
  · obtain ⟨tail, rfl⟩ := List.head?_eq_some_iff.1 hhyphen
    have hskip : Layout.skip ('-' :: tail) = '-' :: tail := Layout.skip_other rfl (by decide)
    have hnone : Token.first? ('-' :: tail) = none := Token.first?_of_skip_eq_cons hskip
    exact Or.inl (by rw [Token.leading_of_none hnone])
  · have hproper : Token.colon.Proper := trivial
    obtain ⟨c, tail, htext, hread⟩ := hproper.read?_eq_some hhyphen
    have hfirst : Token.first? after = some (.colon, rest) :=
      (Token.first?_of_skip_eq_cons (h.trans htext)).trans hread
    exact Or.inr (by rw [Token.leading_of_some hfirst])

/-- A heading matches where it is read.  It also takes the colon of a `:-`, after which no token
starts. -/
theorem mirrorsLooselyAt_heading
    (h : keyword ∈ keywords)
    (cs : List Char) :
    MirrorsLooselyAt whole [.literal keyword, .literal ":"] (heading keyword) NoPairs cs := by
  have hne : ∀ (e : Expression RuleName) es, e :: es ≠ [] := List.cons_ne_nil
  constructor
  · intro _ tokens htakes
    obtain ⟨middle, _, hkeyword, hcolon⟩ := takes_before.1 htakes
    obtain ⟨after, hskip, hafter⟩ := Token.skip_of_leading (takes_symbol.1 hkeyword)
    have hmiddle : (Token.leading after).1 = .colon :: tokens := by
      rw [hafter]
      exact takes_symbol.1 hcolon
    obtain ⟨rest, hskip', hrest⟩ := Token.skip_of_leading hmiddle
    exact ⟨[], rest, matches_heading hskip hskip', by rw [hrest, hafter], rfl⟩
  · intro hnone
    by_cases hfront : keyword.toList <+: Layout.skip cs
    swap
    · exact Or.inl (.both_first_none (.literal_none hfront))
    obtain ⟨after, hafter⟩ := hfront
    by_cases hcolon : ":".toList <+: Layout.skip after
    swap
    · have hfirst : grammarRules.Matches whole .spaced (series [.literal keyword])
          (Layout.skip cs) (some ([], after)) := hafter ▸ .literal keyword after
      have hsecond : grammarRules.Matches whole .spaced (series [.literal ":"])
          (Layout.skip after) none := .literal_none hcolon
      exact Or.inl (matches_append (List.cons_ne_nil _ _) (List.cons_ne_nil _ _) hfirst hsecond)
    obtain ⟨rest, hrest⟩ := hcolon
    have hword : (Token.leading cs).1 = .word keyword :: (Token.leading after).1 :=
      leading_keyword h hafter.symm (endsWord_of_skip hrest.symm)
    refine Or.inr ⟨[], rest, matches_heading hafter.symm hrest.symm, by rw [hword]; exact nofun, ?_⟩
    rcases leading_colon hrest.symm with hhyphen | hread
    · exact hhyphen
    · rw [hword, hread] at hnone
      have htakes : (heading keyword).Takes
          (.word keyword :: .colon :: (Token.leading rest).1) () (Token.leading rest).1 :=
        takes_before.2 ⟨_, (), takes_symbol.2 rfl, takes_symbol.2 rfl⟩
      exact absurd htakes (refuses_iff.1 hnone _ _)

variable {α : Type} {entry : Reader Token α} {name : RuleName}
variable {convert : Pair RuleName → Option α}

theorem mirrorsAt_filledSection
    (hkeyword : keyword ∈ keywords)
    (h : ∀ cs, MirrorsAt whole [.call name] entry (Single convert) cs) :
    MirrorsAt whole [.literal keyword, .literal ":", .call name, zeroOrMore (.call name)]
      (filledSection keyword entry) (fun pairs items => pairs.mapM convert = some items) cs := by
  have hfirst : MirrorsAt whole ([.literal keyword, .literal ":"] ++ [.call name])
      (Reader.after (heading keyword) entry) (Single convert) cs :=
    (mirrorsLooselyAt_heading hkeyword cs).after (List.cons_ne_nil _ _) (List.cons_ne_nil _ _)
      fun rest _ => h rest
  refine (hfirst.thenMany (List.cons_ne_nil _ _) h).map ?_
  rintro _ ⟨first, others⟩ ⟨_, ps, rfl, ⟨pair, rfl, hpair⟩, hps⟩
  simp [hpair, mapM_of_sequence hps]

theorem mirrorsLooselyAt_sectionOf
    (hkeyword : keyword ∈ keywords)
    (h : ∀ cs, MirrorsAt whole [.call name] entry (Single convert) cs) :
    MirrorsLooselyAt whole [.literal keyword, .literal ":", zeroOrMore (.call name)]
      (sectionOf keyword entry) (fun pairs items => pairs.mapM convert = some items) cs := by
  have hheading : MirrorsLooselyAt whole [.literal keyword, .literal ":"] (heading keyword) NoPairs
      cs := mirrorsLooselyAt_heading hkeyword cs
  refine (hheading.thenMany (List.cons_ne_nil _ _) h).map ?_
  rintro _ ⟨_, items⟩ ⟨_, ps, rfl, rfl, hps⟩
  exact mapM_of_sequence hps

/-- The four pairs of a program's sections. -/
def InProgram (pairs : List (Pair RuleName)) (found : Program) : Prop :=
  ∀ used others, Pair.program? (.node .program used (pairs ++ others)) = some found

theorem mirrorsAt_program (cs : List Char) :
    MirrorsAt whole [.call .schemes, .call .facts, .call .rules, .call .queries] program InProgram
      cs := by
  have hne : ∀ (e : Expression RuleName) es, e :: es ≠ [] := List.cons_ne_nil
  have hschemes : ∀ cs, MirrorsAt whole [.call .schemes] (filledSection "Schemes" scheme)
      (Single (Pair.section? .schemes Pair.scheme?)) cs := fun cs =>
    (mirrorsAt_filledSection (by decide) mirrorsAt_scheme).call rfl rfl
      fun _ _ _ hinner => ⟨_, rfl, hinner⟩
  have hfacts : ∀ cs, MirrorsLooselyAt whole [.call .facts] (sectionOf "Facts" fact)
      (Single (Pair.section? .facts Pair.fact?)) cs := fun cs =>
    (mirrorsLooselyAt_sectionOf (by decide) mirrorsAt_fact).call rfl rfl
      fun _ _ _ hinner => ⟨_, rfl, hinner⟩
  have hrules : ∀ cs, MirrorsLooselyAt whole [.call .rules] (sectionOf "Rules" rule)
      (Single (Pair.section? .rules Pair.rule?)) cs := fun cs =>
    (mirrorsLooselyAt_sectionOf (by decide) mirrorsAt_rule).call rfl rfl
      fun _ _ _ hinner => ⟨_, rfl, hinner⟩
  have hqueries : ∀ cs, MirrorsAt whole [.call .queries] (filledSection "Queries" query)
      (Single (Pair.section? .queries Pair.query?)) cs := fun cs =>
    (mirrorsAt_filledSection (by decide) mirrorsAt_query).call rfl rfl
      fun _ _ _ hinner => ⟨_, rfl, hinner⟩
  have hparts := (hschemes cs).loosely.andThen (hne _ _) (hne _ _) fun rest _ =>
    (hfacts rest).andThen (hne _ _) (hne _ _) fun rest _ =>
      (hrules rest).andThen (hne _ _) (hne _ _) fun rest _ => hqueries rest
  refine hparts.map ?_
  rintro _ ⟨schemes, facts, rules, queries⟩
    ⟨_, _, rfl, ⟨s, rfl, hs⟩, _, _, rfl, ⟨f, rfl, hf⟩, _, _, rfl, ⟨r, rfl, hr⟩, q, rfl, hq⟩
  intro used others
  simp [Pair.program?, Pair.inner?, hs, hf, hr, hq]

end Sections

section Texts

variable {α : Type} {p : Reader Token α} {a : α} {text : String}

theorem whole?_eq_some_iff_leading :
    whole? p text = some a ↔
      (Token.leading text.toList).2 = [] ∧ p.Takes (Token.leading text.toList).1 a [] := by
  unfold whole?
  constructor
  · intro h
    cases hscan : Token.scan? text.toList with
    | none =>
        rw [hscan] at h
        cases h
    | some tokens =>
        rw [hscan] at h
        simp only at h
        rw [Token.scan?_eq_some_iff.1 hscan]
        split at h
        · rename_i hread
          cases h
          exact ⟨rfl, _, hread⟩
        · cases h
  · rintro ⟨hend, _, hread⟩
    have hscan : Token.scan? text.toList = some (Token.leading text.toList).1 :=
      Token.scan?_eq_some_iff.2 (Prod.ext rfl hend)
    simp only [hscan, hread]

/-- The end of the text matches where nothing but layout is left. -/
theorem endOfInput_cases (whole rest : List Char) :
    Token.leading rest = ([], []) ∧
        grammarRules.Matches whole .spaced (.call .endOfInput) (Layout.skip rest)
          (some ([.node .endOfInput "" []], [])) ∨
      Token.leading rest ≠ ([], []) ∧
        grammarRules.Matches whole .spaced (.call .endOfInput) (Layout.skip rest) none := by
  by_cases hskip : Layout.skip rest = []
  · rw [Token.leading_of_none (Token.first?_of_skip_eq_nil hskip), hskip]
    have hmatch : grammarRules.Matches whole ((grammarRules.kind .endOfInput).mode .spaced)
        (grammarRules.body .endOfInput) ([] ++ []) (some ([], [])) := .finish
    exact Or.inl ⟨rfl, hmatch.call⟩
  · refine Or.inr ⟨fun hleading => ?_, .call_none (.finish_none hskip)⟩
    cases hfirst : Token.first? rest with
    | none =>
        rw [Token.leading_of_none hfirst] at hleading
        exact hskip (Prod.mk.inj hleading).2
    | some found =>
        rw [Token.leading_of_some hfirst] at hleading
        cases (Prod.mk.inj hleading).1

variable {name : RuleName} {parts : List (Expression RuleName)}
variable {P : List (Pair RuleName) → α → Prop} {convert : Pair RuleName → Option α}

/-- A rule that consists of parts and of the ends of the text reads what the reader of the parts
makes of the whole text. -/
theorem reads_whole
    (hkind : name.kind = .normal)
    (hbody : name.body = series (.start :: (parts ++ [.call .endOfInput])))
    (hparts : parts ≠ [])
    (h : MirrorsAt text.toList parts p P text.toList)
    (hconvert : ∀ used pairs others a, P pairs a →
      convert (.node name used (pairs ++ others)) = some a) :
    grammarRules.Reads name convert text (whole? p text) := by
  have hne : ∀ (e : Expression RuleName) es, e :: es ≠ [] := List.cons_ne_nil
  have hstart : grammarRules.Matches text.toList .spaced (series [.start]) text.toList
      (some ([], text.toList)) := .start
  have hparts' : parts ++ [.call .endOfInput] ≠ [] := List.append_ne_nil_of_left_ne_nil hparts _
  -- The match of the parts and of the end decides, since the start of the text always matches.
  have hbodyMatches : ∀ outcome, grammarRules.Matches text.toList .spaced
      (series (parts ++ [.call .endOfInput])) (Layout.skip text.toList) outcome →
      grammarRules.Matches text.toList .spaced name.body text.toList outcome := by
    intro outcome hmatch
    rw [hbody]
    have hwhole := matches_append (hne _ _) hparts' hstart hmatch
    cases outcome <;> exact hwhole
  cases hread : whole? p text with
  | some a =>
      obtain ⟨hend, htakes⟩ := whole?_eq_some_iff_leading.1 hread
      obtain ⟨pairs, rest, hmatch, hrest, hpairs⟩ := h.follows a [] htakes
      rw [hend] at hrest
      rcases endOfInput_cases text.toList rest with ⟨_, hfinish⟩ | ⟨hnot, _⟩
      · have hmatch' := matches_append hparts (hne (.call .endOfInput) []) hmatch hfinish
        obtain ⟨used, hcall⟩ := matches_call hkind (hbodyMatches _ hmatch')
        exact ⟨_, _, hcall, hconvert used pairs _ a hpairs⟩
      · exact absurd hrest hnot
  | none =>
      refine call_none hkind (hbodyMatches none ?_)
      rcases takes_or_refuses p (Token.leading text.toList).1 with ⟨a, tokens, htakes⟩ | hrefuses
      · obtain ⟨pairs, rest, hmatch, hrest, _⟩ := h.follows a tokens htakes
        rcases endOfInput_cases text.toList rest with ⟨hleading, _⟩ | ⟨_, hfinish⟩
        · rw [hrest] at hleading
          obtain ⟨rfl, hend⟩ := Prod.mk.inj hleading
          rw [whole?_eq_some_iff_leading.2 ⟨hend, htakes⟩] at hread
          cases hread
        · exact matches_append hparts (hne (.call .endOfInput) []) hmatch hfinish
      · exact append_none hparts (hne _ _) (h.refuses hrefuses)

end Texts

end Productions

end Grammar

/-- The rules read a text as a program exactly as the parser does. -/
theorem reads_program_iff
    {text : String} {outcome : Option Program} :
    grammarRules.Reads .program Pair.program? text outcome ↔
      outcome = (Program.parse text).toOption := by
  have hwhole : grammarRules.Reads .program Pair.program? text
      (Grammar.whole? Grammar.program text) :=
    Grammar.reads_whole rfl rfl (List.cons_ne_nil _ _) (Grammar.mirrorsAt_program _)
      fun used _ others _ hpairs => hpairs used others
  have hparse : (Program.parse text).toOption = Grammar.whole? Grammar.program text := by
    unfold Program.parse
    cases Grammar.whole? Grammar.program text <;> rfl
  rw [hparse]
  exact ⟨fun h => h.unique hwhole, fun h => h ▸ hwhole⟩

/-- The rules read a text as a query exactly as the parser does. -/
theorem reads_queryLine_iff
    {text : String} {outcome : Option Predicate} :
    grammarRules.Reads .queryLine Pair.queryLine? text outcome ↔
      outcome = (Predicate.parseQuery text).toOption := by
  have hwhole : grammarRules.Reads .queryLine Pair.queryLine? text
      (Grammar.whole? Grammar.query text) := by
    refine Grammar.reads_whole rfl rfl (List.cons_ne_nil _ _) (Grammar.mirrorsAt_query _) ?_
    rintro used _ others found ⟨pair, rfl, hpair⟩
    exact hpair
  have hparse : (Predicate.parseQuery text).toOption = Grammar.whole? Grammar.query text := by
    unfold Predicate.parseQuery
    cases Grammar.whole? Grammar.query text <;> rfl
  rw [hparse]
  exact ⟨fun h => h.unique hwhole, fun h => h ▸ hwhole⟩

end Recognition

end Datalog
