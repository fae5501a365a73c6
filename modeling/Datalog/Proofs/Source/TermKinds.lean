import Datalog.Proofs.Algebra.Matching
import Datalog.Proofs.Source.Printing

/-!
# The kinds of the terms of parameters

**Parameters.** `Parameter.Grammatical` says that all strings and identifiers inside a parameter are
such.  These are the parameters that the grammar accepts: each of them is read at some place of some
text, and no other one is.

**Kinds.** A parameter has a kind by its form.  The kind of its term is found from the text, which
has no parentheses.  The text starts with the first string or identifier of the parameter, and the
text of an operation has an operator in it, which is neither a letter nor a digit.

**Results.** The two kinds agree except for an operation that starts with a string: its term counts
as a constant.  Such a constant is no string, so it is the value of no row of strings.
-/

namespace Datalog

section TermKinds

namespace TermKind

/-- The kind of a term, by its first character and by all of them. -/
theorem ofText_of_cons
    {term : String} {c : Char} {rest : List Char}
    (h : term.toList = c :: rest) :
    ofText term =
      if c = '\'' then .constant
      else if (c :: rest).all Char.isAlphanum = true then .var
      else .expression := by
  unfold ofText
  rw [h]
  by_cases hc : c = '\''
  · subst hc
    rfl
  · rw [if_neg hc]
    split
    · rename_i heq
      exact absurd (List.cons.inj heq).1 hc
    · rfl

end TermKind

namespace Parameter

/-- The kind that a parameter has by its form. -/
def form : Parameter → TermKind
  | quoted _ => .constant
  | identifier _ => .var
  | operation _ _ _ => .expression

/-- Whether a string comes first in a parameter, not counting the parentheses before it. -/
def startsQuoted : Parameter → Bool
  | quoted _ => true
  | identifier _ => false
  | operation left _ _ => left.startsQuoted

/-- The strings inside a parameter are string literals, and the identifiers are identifiers. -/
inductive Grammatical : Parameter → Prop
  | quoted {text : String} : StringLiteral text → Grammatical (quoted text)
  | identifier {name : String} : Identifier name → Grammatical (identifier name)
  | operation {left right : Parameter} (operator : Operator) :
      Grammatical left → Grammatical right → Grammatical (operation left operator right)

/-- The parameter is read at some place of a text. -/
def Accepted (parameter : Parameter) : Prop :=
  ∃ (text : String) (before tokens rest : List Token),
    Token.scan? text.toList = some (before ++ tokens) ∧
      Reader.Takes Grammar.parameter tokens parameter rest

section Reading

open Grammar Reader

/-- What is read from proper tokens is grammatical. -/
theorem grammatical_of_takes
    {tokens rest : List Token} {read : Parameter}
    (h : Takes Grammar.parameter tokens read rest)
    (hproper : ∀ token ∈ tokens, token.Proper) :
    read.Grammatical := by
  obtain ⟨_, heq⟩ := h
  fun_induction Grammar.parameter tokens generalizing read rest with
  | case1 text after =>
      cases heq
      exact Grammatical.quoted (hproper _ List.mem_cons_self)
  | case3 text after hkeyword =>
      cases heq
      exact Grammatical.identifier ⟨hproper _ List.mem_cons_self, by simpa using hkeyword⟩
  | case7 after left rest₁ h₁ hleft op rest₂ h₂ hop right rest₃ h₃ hright ihleft ihright =>
      cases heq
      obtain ⟨ls, rfl, _⟩ := isParameter_of_takes ⟨h₁, hleft⟩
      obtain ⟨os, rfl, _⟩ := (reads_operator rest₁ op rest₂).1 ⟨h₂, hop⟩
      simp only [List.forall_mem_cons, List.forall_mem_append] at hproper
      refine Grammatical.operation op (ihleft ?_ h₁ hleft) (ihright hproper.2.2.2 h₃ hright)
      simpa only [List.forall_mem_append] using hproper.2
  | case2 | case4 | case5 | case6 | case8 | case9 => cases heq

/-- A grammatical parameter is a phrase of proper tokens that is read wherever it stands. -/
theorem Grammatical.exists_tokens
    {parameter : Parameter}
    (h : parameter.Grammatical) :
    ∃ used, (∀ token ∈ used, token.Proper) ∧ IsParameter used parameter.term ∧
      ∀ rest, Takes Grammar.parameter (used ++ rest) parameter rest := by
  induction h with
  | @quoted text htext =>
      refine ⟨[.quoted text], List.forall_mem_singleton.2 htext, .string (.quoted text),
        fun rest => ⟨Nat.lt_succ_self _, ?_⟩⟩
      simp [Grammar.parameter]
  | @identifier name hname =>
      refine ⟨[.word name], List.forall_mem_singleton.2 hname.spelled,
        .identifier (.word hname.not_keyword), fun rest => ⟨Nat.lt_succ_self _, ?_⟩⟩
      simp [Grammar.parameter, hname.not_keyword]
  | @operation left right operator _ _ ihleft ihright =>
      obtain ⟨ls, hls, hleft, htakesLeft⟩ := ihleft
      obtain ⟨rs, hrs, hright, htakesRight⟩ := ihright
      obtain ⟨os, hos, hoperator⟩ :
          ∃ os, (∀ token ∈ os, token.Proper) ∧ IsOperator os operator := by
        cases operator with
        | plus => exact ⟨[.plus], List.forall_mem_singleton.2 trivial, .plus⟩
        | times => exact ⟨[.star], List.forall_mem_singleton.2 trivial, .times⟩
      refine ⟨.opening :: (ls ++ (os ++ (rs ++ [.closing]))), ?_,
        .expression hleft hoperator hright, fun rest => ?_⟩
      · simp only [List.forall_mem_cons, List.forall_mem_append]
        exact ⟨trivial, hls, hos, hrs, trivial, List.forall_mem_nil _⟩
      · have hop := (reads_operator (os ++ (rs ++ .closing :: rest)) operator _).2
          ⟨os, rfl, hoperator⟩
        have htakes := takes_operation (htakesLeft _) hop (htakesRight (.closing :: rest))
        simpa using htakes

/-- The tokens with a blank after each of them. -/
def spaced : List Token → List Char
  | [] => []
  | token :: tokens => token.characters ++ ' ' :: spaced tokens

theorem spelled_spaced
    {tokens : List Token}
    (h : ∀ token ∈ tokens, token.Proper) :
    Token.Spelled tokens (spaced tokens) := by
  induction tokens with
  | nil => exact Token.Spelled.nil (Layout.Before.refl [])
  | cons token tokens ih =>
      obtain ⟨hproper, hrest⟩ := List.forall_mem_cons.1 h
      have hblank : Layout.isBlank ' ' = true := by decide
      refine ((ih hrest).blank hblank).token hproper ?_
      cases token with
      | word text => exact Token.endsWord_cons (by decide) _
      | quoted | opening | closing | comma | dot | question | colon | arrow | plus | star =>
          exact trivial

/-- The grammar accepts the grammatical parameters and no other ones. -/
theorem accepted_iff
    {parameter : Parameter} :
    parameter.Accepted ↔ parameter.Grammatical := by
  constructor
  · rintro ⟨text, before, tokens, rest, hscan, htakes⟩
    have hproper := (Token.spelled_of_scan? hscan).proper
    exact grammatical_of_takes htakes fun token htoken =>
      hproper token (List.mem_append_right before htoken)
  · intro h
    obtain ⟨used, hproper, hparameter, htakes⟩ := h.exists_tokens
    have hapart : Token.Apart (used ++ []) := hparameter.guarded [] List.IsChain.nil nofun
    have htakes' := htakes []
    rw [List.append_nil] at hapart htakes'
    refine ⟨String.ofList (spaced used), [], used, [], ?_, htakes'⟩
    rw [String.toList_ofList, Token.scan?_of_spelled (spelled_spaced hproper) hapart]
    rfl

end Reading

section Characters

/-- The term of a parameter starts with an apostrophe exactly if a string comes first. -/
theorem Grammatical.head_term
    {parameter : Parameter}
    (h : parameter.Grammatical) :
    ∃ c rest, parameter.term.toList = c :: rest ∧
      (c = '\'' ↔ parameter.startsQuoted = true) := by
  induction h with
  | quoted htext =>
      obtain ⟨body, _, heq⟩ := htext
      exact ⟨'\'', _, heq, by simp [startsQuoted]⟩
  | identifier hname =>
      obtain ⟨c, rest, heq, halpha, _⟩ := hname.spelled
      refine ⟨c, rest, heq, iff_of_false (Token.ne_of_isAlpha halpha rfl) ?_⟩
      simp [startsQuoted]
  | @operation left right operator _ _ ihleft _ =>
      obtain ⟨c, rest, heq, hc⟩ := ihleft
      refine ⟨c, rest ++ operator.text.toList ++ right.term.toList, ?_, hc⟩
      simp [term, String.toList_append, heq]

theorem exists_operator_mem_term
    (left right : Parameter)
    (operator : Operator) :
    ∃ c ∈ (operation left operator right).term.toList, c.isAlphanum = false := by
  cases operator with
  | plus => exact ⟨'+', by simp [term, Operator.text], rfl⟩
  | times => exact ⟨'*', by simp [term, Operator.text], rfl⟩

/-- If a string comes first in a parameter, it is followed by more exactly where the parameter is
an operation. -/
theorem Grammatical.exists_leading
    {parameter : Parameter}
    (h : parameter.Grammatical)
    (hquoted : parameter.startsQuoted = true) :
    ∃ text after, StringLiteral text ∧ parameter.term.toList = text.toList ++ after ∧
      after.head? ≠ some '\'' ∧ (after = [] → parameter.form = .constant) := by
  induction h with
  | @quoted text htext => exact ⟨text, [], htext, (List.append_nil _).symm, nofun, fun _ => rfl⟩
  | identifier => cases hquoted
  | @operation left right operator _ _ ihleft _ =>
      obtain ⟨text, after, htext, hleft, hafter, _⟩ := ihleft hquoted
      refine ⟨text, after ++ (operator.text.toList ++ right.term.toList), htext, ?_, ?_, ?_⟩
      · simp [term, String.toList_append, hleft]
      · cases after with
        | nil => cases operator <;> simp [Operator.text]
        | cons c after => exact hafter
      · intro hnil
        cases operator <;> simp [Operator.text] at hnil

/-- The term of a parameter is a string exactly if the parameter is one. -/
theorem Grammatical.stringLiteral_term_iff
    {parameter : Parameter}
    (h : parameter.Grammatical) :
    StringLiteral parameter.term ↔ parameter.form = .constant := by
  constructor
  · intro hliteral
    have hquoted : parameter.startsQuoted = true := by
      obtain ⟨c, rest, hterm, hc⟩ := h.head_term
      obtain ⟨body, _, hbody⟩ := hliteral
      exact hc.1 (List.cons.inj (hterm.symm.trans hbody)).1
    obtain ⟨text, after, htext, hterm, hafter, hform⟩ := h.exists_leading hquoted
    have hend : ([] : List Char).head? ≠ some '\'' := nofun
    rw [← List.append_nil parameter.term.toList] at hterm
    exact hform (hliteral.append_inj htext hend hafter hterm).2.symm
  · intro hform
    cases h with
    | quoted htext => exact htext
    | identifier => cases hform
    | operation => cases hform

end Characters

/-- The term of a parameter that the grammar accepts has the kind that the parameter has by its
form, unless the parameter is an operation that starts with a string: then it has the kind of a
constant. -/
theorem kind_of_accepted
    (parameter : Parameter)
    (h : parameter.Accepted) :
    TermKind.ofText parameter.term =
      if parameter.startsQuoted = true then .constant else parameter.form := by
  have hgrammatical := accepted_iff.1 h
  obtain ⟨c, rest, hterm, hc⟩ := hgrammatical.head_term
  rw [TermKind.ofText_of_cons hterm]
  by_cases hquoted : parameter.startsQuoted = true
  · rw [if_pos hquoted, if_pos (hc.2 hquoted)]
  · rw [if_neg hquoted, if_neg (mt hc.1 hquoted), ← hterm]
    cases hgrammatical with
    | quoted => exact absurd rfl hquoted
    | identifier hname =>
        obtain ⟨d, letters, hletters, halpha, hrest⟩ := hname.spelled
        refine if_pos (List.all_eq_true.2 ?_)
        simp only [term, hletters, List.forall_mem_cons]
        exact ⟨by simp [Char.isAlphanum, halpha], hrest⟩
    | @operation left right operator =>
        obtain ⟨d, hd, hnot⟩ := exists_operator_mem_term left right operator
        refine if_neg fun hall => ?_
        rw [List.all_eq_true.1 hall d hd] at hnot
        cases hnot

/-- Two products in a sum; the one that starts with a string is on the right. -/
def mixedSum : Parameter :=
  .operation (.operation (.identifier "x") .times (.quoted "'it''s'")) .plus
    (.operation (.quoted "'+'") .times (.identifier "y"))

/-- A string inside an expression does not make it a constant, and neither does an operator inside
a string make that one an expression. -/
theorem kind_of_mixedSum :
    mixedSum.Accepted ∧ mixedSum.term = "x*'it''s'+'+'*y" ∧
      TermKind.ofText mixedSum.term =
        if mixedSum.startsQuoted = true then .constant else mixedSum.form := by
  have hword (name : String) (h : Identifier name) := Grammatical.identifier h
  have hstring (text : String) (h : StringLiteral text) := Grammatical.quoted h
  have haccepted : mixedSum.Accepted :=
    accepted_iff.2 (.operation .plus
      (.operation .times (hword "x" (by decide)) (hstring "'it''s'" (by decide)))
      (.operation .times (hstring "'+'" (by decide)) (hword "y" (by decide))))
  exact ⟨haccepted, by decide, kind_of_accepted mixedSum haccepted⟩

/-- The sum of a string and a variable, with the string first. -/
def quotedSum : Parameter :=
  .operation (.quoted "'a'") .plus (.identifier "x")

/-- An expression that starts with a string is read as a term that counts as a constant. -/
theorem quotedSum_is_constant :
    quotedSum.Accepted ∧ Predicate.parseQuery "S(('a'+x))?" = .ok ⟨"S", [quotedSum.term]⟩ ∧
      quotedSum.form = .expression ∧ TermKind.ofText quotedSum.term = .constant ∧
      ¬ ∀ parameter : Parameter,
        parameter.Accepted → TermKind.ofText parameter.term = parameter.form := by
  have haccepted : quotedSum.Accepted :=
    accepted_iff.2 (.operation .plus (.quoted (by decide)) (.identifier (by decide)))
  have hkind : TermKind.ofText quotedSum.term = .constant := by decide
  refine ⟨haccepted, ?_, rfl, hkind, fun hall => ?_⟩
  · rw [Predicate.parseQuery_eq_ok_iff]
    decide +kernel
  · have hform := hall quotedSum haccepted
    rw [hkind] at hform
    cases hform

/-- A predicate with an expression that starts with a string at one of its columns matches no row
of strings. -/
theorem matched_eq_zero_of_startsQuoted
    {r : Relation} {predicate : Predicate} {column : Nat} {parameter : Parameter}
    (hr : r.Over StringLiteral)
    (h : parameter.Grammatical)
    (hform : parameter.form = .expression)
    (hquoted : parameter.startsQuoted = true)
    (hcolumn : column < r.arity)
    (hterm : predicate.terms[column]? = some parameter.term) :
    (Matching.bind r predicate).matched = 0 := by
  obtain ⟨c, rest, hchars, hc⟩ := h.head_term
  have hconstant : TermKind.isConstant parameter.term = true := by
    rw [TermKind.isConstant, TermKind.ofText_of_cons hchars, if_pos (hc.2 hquoted)]
    rfl
  refine List.length_eq_zero_iff.2 (List.eq_nil_iff_forall_not_mem.2 fun row hrow => ?_)
  obtain ⟨hmem, _, hvalues⟩ := Relation.mem_select.1 hrow
  have hvalue := hvalues (column, parameter.term) (Matching.mem_constants.2 ⟨hterm, hconstant⟩)
    hcolumn
  have hliteral := hr row hmem parameter.term (List.mem_of_getElem? hvalue)
  rw [h.stringLiteral_term_iff, hform] at hliteral
  cases hliteral

end Parameter

end TermKinds

end Datalog
