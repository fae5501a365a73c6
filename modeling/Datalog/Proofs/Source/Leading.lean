import Datalog.Proofs.Source.Lexing

/-!
# The tokens that a text starts with

**Tokens.** `Token.leading` gives the tokens of a text up to the first character that starts none,
and the text from there on.  A text has tokens, for the scanner, if nothing is left there.

**Results.** Layout makes no difference to the leading tokens.  The first of them stands in the text
where its layout ends, and the others are the leading tokens of what follows.
-/

namespace Datalog

section Leading

namespace Token

variable {cs after : List Char} {token : Token} {tokens : List Token}

/-- The token that a text starts with after its layout, and what follows it. -/
def first? (cs : List Char) : Option (Token × List Char) :=
  match Layout.skip cs with
  | [] => none
  | c :: rest => read? c rest

theorem first?_of_skip_eq_cons
    {c : Char} {rest : List Char}
    (h : Layout.skip cs = c :: rest) :
    first? cs = read? c rest := by
  rw [first?, h]

theorem first?_of_skip_eq_nil (h : Layout.skip cs = []) : first? cs = none := by
  rw [first?, h]

theorem exists_of_first?
    (h : first? cs = some (token, after)) :
    ∃ c rest, Layout.skip cs = c :: rest ∧ read? c rest = some (token, after) := by
  cases hskip : Layout.skip cs with
  | nil =>
      rw [first?_of_skip_eq_nil hskip] at h
      cases h
  | cons c rest =>
      rw [first?_of_skip_eq_cons hskip] at h
      exact ⟨c, rest, rfl, h⟩

theorem length_first?_lt
    (h : first? cs = some (token, after)) :
    after.length < cs.length := by
  obtain ⟨c, rest, hskip, hread⟩ := exists_of_first? h
  have hle := length_read?_le hread
  have hskip' := Layout.length_skip_le cs
  rw [hskip, List.length_cons] at hskip'
  omega

section Words

variable {c : Char} {rest : List Char} {text : String}

theorem read?_of_isAlpha
    (h : c.isAlpha = true) :
    read? c rest = some (.word (String.ofList (c :: leadingWord rest)), afterWord rest) := by
  rw [read?.eq_def, if_neg (ne_of_isAlpha h rfl), if_neg (ne_of_isAlpha h rfl), if_pos h]
  rfl

theorem read?_of_quotedTail?
    {body : List Char}
    (h : quotedTail? rest = some (body, after)) :
    read? '\'' rest = some (.quoted (String.ofList ('\'' :: body)), after) := by
  rw [read?.eq_def, if_pos rfl, h]
  rfl

theorem eq_of_read?_word
    (h : read? c rest = some (.word text, after)) :
    c.isAlpha = true ∧ text = String.ofList (c :: leadingWord rest) ∧ after = afterWord rest := by
  obtain ⟨hcharacters, ⟨d, tail, htext, halpha, _⟩, _⟩ := eq_append_of_read? h
  rw [characters, htext, List.cons_append] at hcharacters
  obtain ⟨rfl, _⟩ := List.cons.inj hcharacters
  rw [read?_of_isAlpha halpha] at h
  cases h
  exact ⟨halpha, rfl, rfl⟩

theorem eq_of_read?_quoted
    (h : read? c rest = some (.quoted text, after)) :
    ∃ body, c = '\'' ∧ quotedTail? rest = some (body, after) ∧
      text = String.ofList ('\'' :: body) := by
  obtain ⟨hcharacters, ⟨_, _, htext⟩, _⟩ := eq_append_of_read? h
  rw [characters, htext, List.cons_append] at hcharacters
  obtain ⟨rfl, _⟩ := List.cons.inj hcharacters
  rw [read?.eq_def, if_pos rfl] at h
  obtain ⟨⟨body, _⟩, htail, heq⟩ := Option.map_eq_some_iff.1 h
  cases heq
  exact ⟨body, rfl, htail, rfl⟩

end Words

/-- The tokens of a text up to the first character that starts none, and the text from there on. -/
def leading (cs : List Char) : List Token × List Char :=
  match _hfirst : first? cs with
  | none => ([], Layout.skip cs)
  | some (token, after) => (token :: (leading after).1, (leading after).2)
termination_by cs.length
decreasing_by all_goals exact length_first?_lt _hfirst

theorem leading_of_none (h : first? cs = none) : leading cs = ([], Layout.skip cs) := by
  rw [leading]
  split
  · rfl
  · rename_i hsome
    rw [h] at hsome
    cases hsome

theorem leading_of_some
    (h : first? cs = some (token, after)) :
    leading cs = (token :: (leading after).1, (leading after).2) := by
  rw [leading]
  split
  · rename_i hnone
    rw [h] at hnone
    cases hnone
  · rename_i hsome
    rw [h] at hsome
    cases hsome
    rfl

theorem skip_skip (cs : List Char) : Layout.skip (Layout.skip cs) = Layout.skip cs :=
  (Layout.skip_of_before (Layout.before_skip cs)).symm

theorem leading_skip (cs : List Char) : leading (Layout.skip cs) = leading cs := by
  have hfirst : first? (Layout.skip cs) = first? cs := by rw [first?, skip_skip, first?]
  cases h : first? cs with
  | none => rw [leading_of_none h, leading_of_none (hfirst.trans h), skip_skip]
  | some found => rw [leading_of_some h, leading_of_some (hfirst.trans h)]

theorem first?_of_leading
    (h : (leading cs).1 = token :: tokens) :
    ∃ after, first? cs = some (token, after) ∧ (leading after).1 = tokens ∧
      (leading after).2 = (leading cs).2 := by
  cases hfirst : first? cs with
  | none =>
      rw [leading_of_none hfirst] at h
      cases h
  | some found =>
      obtain ⟨token', after⟩ := found
      rw [leading_of_some hfirst] at h ⊢
      obtain ⟨rfl, htail⟩ := List.cons.inj h
      exact ⟨after, rfl, htail, rfl⟩

theorem skip_of_leading
    (h : (leading cs).1 = token :: tokens) :
    ∃ after, Layout.skip cs = token.characters ++ after ∧
      leading after = (tokens, (leading cs).2) := by
  obtain ⟨after, hfirst, htokens, hend⟩ := first?_of_leading h
  obtain ⟨c, rest, hskip, hread⟩ := exists_of_first? hfirst
  exact ⟨after, hskip.trans (eq_append_of_read? hread).1, Prod.ext htokens hend⟩

/-- A text has tokens if and only if its leading ones are all there is. -/
theorem scan?_eq_some_iff : scan? cs = some tokens ↔ leading cs = (tokens, []) := by
  fun_induction scan? cs generalizing tokens with
  | case1 cs hskip =>
      rw [leading_of_none (first?_of_skip_eq_nil hskip), hskip]
      simp
  | case2 cs c rest hskip hread =>
      rw [leading_of_none ((first?_of_skip_eq_cons hskip).trans hread), hskip]
      simp
  | case3 cs c rest hskip token after hread ih =>
      rw [leading_of_some ((first?_of_skip_eq_cons hskip).trans hread), Option.map_eq_some_iff]
      constructor
      · rintro ⟨others, hothers, rfl⟩
        rw [ih.1 hothers]
      · intro heq
        obtain ⟨rfl, hrest⟩ := Prod.mk.inj heq
        exact ⟨_, ih.2 (Prod.ext rfl hrest), rfl⟩

end Token

end Leading

end Datalog
