import Datalog.Proofs.Source.StringLiteral
import Mathlib.Data.List.Chain
import Mathlib.Data.List.TakeWhile

/-!
# How tokens are spelled

**Layout.** `Layout.Before` says that a text is layout up to a given rest.  Whether a `#` opens a
block comment depends on all that follows it, so the rest is part of the statement.

**Tokens.** `Token.Spelled` says that a text is the given tokens in turn, with any amount of layout
before, between and after them.  It is no algorithm: the same text can be spelled in several ways,
since `'a''b'` is one string and also two strings without layout between them.

**Results.** The scanner reads a text only as tokens that the text spells.  If no string stands
directly after a string, it reads every spelling of the tokens.
-/

namespace Datalog

section Spelling

namespace Layout

/-- After its `#` a comment goes on as a block comment that has an end. -/
def OpensBlock (cs : List Char) : Prop :=
  ∃ inner after, cs = '|' :: (inner ++ '|' :: '#' :: after)

/-- The first text is the second one with layout before it. -/
inductive Before : List Char → List Char → Prop
  | refl (rest : List Char) : Before rest rest
  | blank {c : Char} {cs rest : List Char} :
      isBlank c = true → Before cs rest → Before (c :: cs) rest
  | block {inner after rest : List Char} :
      ¬ ['|', '#'] <:+: inner → Before after rest →
      Before ('#' :: '|' :: (inner ++ '|' :: '#' :: after)) rest
  | line {comment after rest : List Char} :
      ¬ OpensBlock (comment ++ after) → (∀ c ∈ comment, endsLine c = false) →
      (∀ c ∈ after.head?, endsLine c = true) → Before after rest →
      Before ('#' :: (comment ++ after)) rest

section Blocks

theorem afterBlock?_cons
    {c : Char} {cs : List Char}
    (h : ¬ ∃ rest, c :: cs = '|' :: '#' :: rest) :
    afterBlock? (c :: cs) = afterBlock? cs := by
  rw [afterBlock?]
  rintro rest rfl rfl
  exact h ⟨rest, rfl⟩

/-- A block ends at the first `|#`. -/
theorem afterBlock?_append
    {inner : List Char} (rest : List Char)
    (h : ¬ ['|', '#'] <:+: inner) :
    afterBlock? (inner ++ '|' :: '#' :: rest) = some rest := by
  induction inner with
  | nil => rfl
  | cons c inner ih =>
      have hinner : ¬ ['|', '#'] <:+: inner := fun hinfix => h (List.infix_cons hinfix)
      rw [List.cons_append, afterBlock?_cons, ih hinner]
      rintro ⟨rest', heq⟩
      obtain ⟨rfl, htail⟩ := List.cons.inj heq
      cases inner with
      | nil => simp at htail
      | cons d inner =>
          obtain ⟨rfl, _⟩ := List.cons.inj htail
          exact h (List.prefix_append ['|', '#'] inner).isInfix

theorem eq_append_of_afterBlock?
    {cs rest : List Char}
    (h : afterBlock? cs = some rest) :
    ∃ inner, ¬ ['|', '#'] <:+: inner ∧ cs = inner ++ '|' :: '#' :: rest := by
  fun_induction afterBlock? cs with
  | case1 => cases h
  | case2 rest' =>
      cases h
      exact ⟨[], by simp, rfl⟩
  | case3 c cs hother ih =>
      obtain ⟨inner, hinner, rfl⟩ := ih h
      refine ⟨c :: inner, fun hinfix => ?_, rfl⟩
      rcases List.infix_cons_iff.1 hinfix with ⟨tail, htail⟩ | hinfix
      · obtain ⟨rfl, rfl⟩ := List.cons.inj htail
        exact hother _ rfl rfl
      · exact hinner hinfix

/-- Wherever a `|#` stands, the block has an end. -/
theorem afterBlock?_append_ne_none (inner rest : List Char) :
    afterBlock? (inner ++ '|' :: '#' :: rest) ≠ none := by
  induction inner with
  | nil => exact nofun
  | cons c inner ih =>
      by_cases hend : ∃ rest', c :: (inner ++ '|' :: '#' :: rest) = '|' :: '#' :: rest'
      · obtain ⟨rest', heq⟩ := hend
        rw [List.cons_append, heq]
        exact nofun
      · rw [List.cons_append, afterBlock?_cons hend]
        exact ih

theorem afterBlock?_eq_none
    {inner : List Char}
    (h : ¬ OpensBlock ('|' :: inner)) :
    afterBlock? inner = none := by
  cases hblock : afterBlock? inner with
  | none => rfl
  | some rest =>
      obtain ⟨inner', _, rfl⟩ := eq_append_of_afterBlock? hblock
      exact absurd ⟨inner', rest, rfl⟩ h

end Blocks

section Lines

/-- A run of characters is cut off where the first other one stands. -/
theorem takeWhile_dropWhile_append
    {p : Char → Bool} {run after : List Char}
    (hrun : ∀ c ∈ run, p c = true)
    (hafter : ∀ c ∈ after.head?, p c = false) :
    (run ++ after).takeWhile p = run ∧ (run ++ after).dropWhile p = after := by
  rw [List.takeWhile_append_of_pos hrun, List.dropWhile_append_of_pos hrun]
  cases after with
  | nil => simp
  | cons c after => simp [hafter c rfl]

theorem afterLine_append
    {comment after : List Char}
    (hcomment : ∀ c ∈ comment, endsLine c = false)
    (hafter : ∀ c ∈ after.head?, endsLine c = true) :
    afterLine (comment ++ after) = after := by
  refine (takeWhile_dropWhile_append (fun c hc => ?_) fun c hc => ?_).2
  · simp [hcomment c hc]
  · simp [hafter c hc]

theorem endsLine_of_mem_head?_afterLine
    {cs : List Char} {c : Char}
    (h : c ∈ (afterLine cs).head?) :
    endsLine c = true := by
  have hnot := List.head?_dropWhile_not (fun d => !endsLine d) cs
  rw [show cs.dropWhile (fun d => !endsLine d) = afterLine cs from rfl, h] at hnot
  simpa using hnot

end Lines

section Skipping

variable {c : Char} {cs rest : List Char}

theorem skip_blank (h : isBlank c = true) : skip (c :: cs) = skip cs := by
  rw [skip, if_pos h]

theorem skip_comment : skip ('#' :: cs) = skip (afterComment cs) := by
  rw [skip, if_neg (by decide), if_pos rfl]

theorem skip_other
    (hblank : isBlank c = false)
    (hcomment : c ≠ '#') :
    skip (c :: cs) = c :: cs := by
  rw [skip, if_neg (by simp [hblank]), if_neg hcomment]

theorem afterComment_of_not_opensBlock
    (h : ¬ OpensBlock cs) :
    afterComment cs = afterLine cs := by
  unfold afterComment
  split
  · rw [afterBlock?_eq_none h, Option.getD_none]
  · rfl

/-- Layout is what is skipped. -/
theorem skip_of_before
    (h : Before cs rest) :
    skip cs = skip rest := by
  induction h with
  | refl => rfl
  | blank hblank _ ih => rw [skip_blank hblank, ih]
  | block hinner _ ih =>
      rw [skip_comment, afterComment, afterBlock?_append _ hinner, Option.getD_some, ih]
  | line hblock hcomment hafter _ ih =>
      rw [skip_comment, afterComment_of_not_opensBlock hblock, afterLine_append hcomment hafter,
        ih]

theorem before_of_before_afterComment
    (h : Before (afterComment cs) rest) :
    Before ('#' :: cs) rest := by
  -- With any `|#` behind it the comment is a block, though it may end at an earlier one.
  by_cases hblock : OpensBlock cs
  · obtain ⟨inner, after, rfl⟩ := hblock
    cases hend : afterBlock? (inner ++ '|' :: '#' :: after) with
    | none => exact absurd hend (afterBlock?_append_ne_none inner after)
    | some after' =>
        rw [afterComment, hend, Option.getD_some] at h
        obtain ⟨inner', hinner', heq⟩ := eq_append_of_afterBlock? hend
        rw [heq]
        exact Before.block hinner' h
  · rw [afterComment_of_not_opensBlock hblock] at h
    have hsplit : cs.takeWhile (fun c => !endsLine c) ++ afterLine cs = cs :=
      List.takeWhile_append_dropWhile
    rw [← hsplit] at hblock ⊢
    refine Before.line hblock (fun c hc => ?_) (fun c hc => endsLine_of_mem_head?_afterLine hc) h
    simpa using List.mem_takeWhile_imp hc

/-- All that is skipped is layout. -/
theorem before_skip (cs : List Char) : Before cs (skip cs) := by
  fun_induction skip cs with
  | case1 => exact Before.refl _
  | case2 c cs hblank ih => exact Before.blank hblank ih
  | case3 cs _ ih => exact before_of_before_afterComment ih
  | case4 c cs _ _ => exact Before.refl _

/-- A text with layout before it is that text, or it starts with a blank or with a comment. -/
theorem Before.head_cases
    (h : Before (c :: cs) rest) :
    c :: cs = rest ∨ isBlank c = true ∨ c = '#' := by
  cases h with
  | refl => exact Or.inl rfl
  | blank hblank _ => exact Or.inr (Or.inl hblank)
  | block | line => exact Or.inr (Or.inr rfl)

end Skipping

end Layout

namespace Token

/-- A word is a letter with letters and digits after it, and a string is a string literal. -/
def Proper : Token → Prop
  | .word text =>
      ∃ c rest, text.toList = c :: rest ∧ c.isAlpha = true ∧ ∀ d ∈ rest, d.isAlphanum = true
  | .quoted text => StringLiteral text
  | _ => True

/-- The characters of a token. -/
def characters : Token → List Char
  | word text => text.toList
  | quoted text => text.toList
  | opening => ['(']
  | closing => [')']
  | comma => [',']
  | dot => ['.']
  | question => ['?']
  | colon => [':']
  | arrow => [':', '-']
  | plus => ['+']
  | star => ['*']

/-- No word goes on into this text. -/
def EndsWord (after : List Char) : Prop :=
  ∀ c ∈ after.head?, c.isAlphanum = false

/-- A word is as long as it can be; any other token can be followed by anything. -/
def EndsAt (after : List Char) : Token → Prop
  | word _ => EndsWord after
  | _ => True

/-- A text is the given tokens in turn, with layout before, between and after them. -/
inductive Spelled : List Token → List Char → Prop
  | nil {cs : List Char} : Layout.Before cs [] → Spelled [] cs
  | cons {token : Token} {tokens : List Token} {cs after : List Char} :
      Layout.Before cs (token.characters ++ after) → token.Proper → token.EndsAt after →
      Spelled tokens after → Spelled (token :: tokens) cs

/-- The token is a string. -/
def IsQuoted : Token → Prop
  | quoted _ => True
  | _ => False

/-- No string comes directly after a string. -/
def Apart (tokens : List Token) : Prop :=
  tokens.IsChain fun token next => token.IsQuoted → ¬ next.IsQuoted

section Reading

variable {token : Token} {tokens : List Token} {cs after : List Char}

/-- What is read is a token at the front of the text. -/
theorem eq_append_of_read?
    {c : Char} {rest : List Char}
    (h : read? c rest = some (token, after)) :
    c :: rest = token.characters ++ after ∧ token.Proper ∧ token.EndsAt after := by
  rw [read?.eq_def] at h
  split at h
  · rename_i hquote
    obtain ⟨⟨tail, after'⟩, htail, heq⟩ := Option.map_eq_some_iff.1 h
    cases heq
    obtain ⟨body, hbody, rfl, hrest⟩ := quotedTail?_eq_some htail
    exact ⟨by simp [characters, hrest], ⟨body, hbody, by simp [hquote]⟩, trivial⟩
  · split at h
    · rename_i hcolon
      subst hcolon
      split at h <;> cases h <;> exact ⟨rfl, trivial, trivial⟩
    · split at h
      · rename_i halpha
        cases h
        have hword : ∀ d ∈ rest.takeWhile Char.isAlphanum, d.isAlphanum = true :=
          List.all_eq_true.1 List.all_takeWhile
        refine ⟨by simp [characters], ⟨c, _, String.toList_ofList, halpha, hword⟩, fun d hd => ?_⟩
        have hnot := List.head?_dropWhile_not Char.isAlphanum rest
        rw [hd] at hnot
        simpa using hnot
      · obtain ⟨found, hfound, heq⟩ := Option.map_eq_some_iff.1 h
        cases heq
        unfold ofPunctuation? at hfound
        split at hfound <;> cases hfound <;> exact ⟨rfl, trivial, trivial⟩

theorem ne_of_isAlpha
    {c d : Char}
    (hc : c.isAlpha = true)
    (hd : d.isAlpha = false) :
    c ≠ d := by
  rintro rfl
  rw [hc] at hd
  cases hd

/-- A token starts with no layout and with no hyphen, and only a string with an apostrophe. -/
theorem Proper.head_characters
    (h : token.Proper) :
    ∃ c rest, token.characters = c :: rest ∧ Layout.isBlank c = false ∧ c ≠ '#' ∧ c ≠ '-' ∧
      (c = '\'' → token.IsQuoted) := by
  cases token with
  | word text =>
      obtain ⟨c, rest, htext, halpha, _⟩ := h
      have hne : ∀ d : Char, d.isAlpha = false → c ≠ d := fun _ => ne_of_isAlpha halpha
      refine ⟨c, rest, htext, ?_, hne '#' rfl, hne '-' rfl, fun hc => absurd hc (hne '\'' rfl)⟩
      simp [Layout.isBlank, hne ' ' rfl, hne '\t' rfl, hne '\r' rfl, hne '\n' rfl]
  | quoted text =>
      obtain ⟨body, _, htext⟩ := h
      exact ⟨'\'', _, htext, by decide, by decide, by decide, fun _ => trivial⟩
  | opening | closing | comma | dot | question | colon | arrow | plus | star =>
      exact ⟨_, _, rfl, by decide, by decide, by decide, fun hc => absurd hc (by decide)⟩

/-- What must not follow a token for it to be read as it is. -/
def Delimited (after : List Char) : Token → Prop
  | word _ => EndsWord after
  | quoted _ => after.head? ≠ some '\''
  | colon => after.head? ≠ some '-'
  | _ => True

/-- A token at the front of a text is read, unless what follows makes it a longer one. -/
theorem Proper.read?_eq_some
    (h : token.Proper)
    (hafter : token.Delimited after) :
    ∃ c rest, token.characters ++ after = c :: rest ∧ read? c rest = some (token, after) := by
  cases token with
  | word text =>
      obtain ⟨c, rest, htext, halpha, hrest⟩ := h
      have hne : ∀ d : Char, d.isAlpha = false → c ≠ d := fun _ => ne_of_isAlpha halpha
      obtain ⟨htake, hdrop⟩ := Layout.takeWhile_dropWhile_append hrest hafter
      refine ⟨c, rest ++ after, by simp [characters, htext], ?_⟩
      rw [read?.eq_def, if_neg (hne '\'' rfl), if_neg (hne ':' rfl), if_pos halpha, htake, hdrop,
        ← htext, String.ofList_toList]
  | quoted text =>
      obtain ⟨body, hbody, htext⟩ := h
      refine ⟨'\'', body ++ '\'' :: after, by simp [characters, htext], ?_⟩
      rw [read?.eq_def, if_pos rfl, hbody.quotedTail?_append hafter, Option.map_some]
      simp only [← htext, String.ofList_toList]
  | colon =>
      refine ⟨':', after, rfl, ?_⟩
      unfold read?
      rw [if_neg (by decide), if_pos rfl]
      split
      · exact absurd rfl hafter
      · rfl
  | opening | closing | comma | dot | question | arrow | plus | star => exact ⟨_, _, rfl, rfl⟩

end Reading

section Scanning

variable {token : Token} {tokens : List Token} {cs after : List Char}

theorem scan?_of_skip_eq_nil (h : Layout.skip cs = []) : scan? cs = some [] := by
  rw [scan?]
  split
  · rfl
  · rename_i heq
    rw [h] at heq
    cases heq

theorem scan?_of_skip_eq_cons
    {c : Char} {rest : List Char}
    (hskip : Layout.skip cs = c :: rest)
    (hread : read? c rest = some (token, after)) :
    scan? cs = (scan? after).map (token :: ·) := by
  rw [scan?]
  split
  · rename_i heq
    rw [hskip] at heq
    cases heq
  · rename_i heq
    rw [hskip] at heq
    cases heq
    split
    · rename_i hnone
      rw [hread] at hnone
      cases hnone
    · rename_i hsome
      rw [hread] at hsome
      cases hsome
      rfl

/-- A text is spelled by the tokens that are read from it. -/
theorem spelled_of_scan?
    (h : scan? cs = some tokens) :
    Spelled tokens cs := by
  fun_induction scan? cs generalizing tokens with
  | case1 cs hskip =>
      cases h
      have hbefore := Layout.before_skip cs
      rw [hskip] at hbefore
      exact Spelled.nil hbefore
  | case2 cs c rest _ _ => cases h
  | case3 cs c rest hskip token after hread ih =>
      obtain ⟨others, hothers, rfl⟩ := Option.map_eq_some_iff.1 h
      obtain ⟨hcharacters, hproper, hends⟩ := eq_append_of_read? hread
      have hbefore := Layout.before_skip cs
      rw [hskip, hcharacters] at hbefore
      exact Spelled.cons hbefore hproper hends (ih hothers)

theorem Spelled.proper
    (h : Spelled tokens cs) :
    ∀ token ∈ tokens, token.Proper := by
  induction h with
  | nil => exact nofun
  | cons _ hproper _ _ ih => exact List.forall_mem_cons.2 ⟨hproper, ih⟩

/-- The first character of a spelling that starts with a token is the first one of the token. -/
theorem Spelled.head_cases
    {c : Char}
    (h : Spelled tokens (c :: cs)) :
    Layout.isBlank c = true ∨ c = '#' ∨
      ∃ token ∈ tokens.head?, token.Proper ∧ ∃ rest, token.characters = c :: rest := by
  cases h with
  | nil hbefore =>
      rcases hbefore.head_cases with heq | hlayout
      · cases heq
      · exact hlayout.imp_right Or.inl
  | cons hbefore hproper _ _ =>
      rcases hbefore.head_cases with heq | hlayout
      · obtain ⟨d, rest, hcharacters, _⟩ := hproper.head_characters
        rw [hcharacters, List.cons_append] at heq
        obtain ⟨rfl, _⟩ := List.cons.inj heq
        exact Or.inr (Or.inr ⟨_, rfl, hproper, rest, hcharacters⟩)
      · exact hlayout.imp_right Or.inl

/-- A character that is no layout stands at the front only if the first token starts with it. -/
theorem Spelled.head?_ne
    {c : Char}
    (h : Spelled tokens after)
    (hblank : Layout.isBlank c = false)
    (hcomment : c ≠ '#')
    (hfirst : ∀ token ∈ tokens.head?, token.Proper → token.characters.head? ≠ some c) :
    after.head? ≠ some c := by
  cases after with
  | nil => exact nofun
  | cons d after =>
      intro heq
      obtain rfl : d = c := Option.some.inj heq
      rcases h.head_cases with hlayout | hlayout | ⟨token, htoken, hproper, rest, hcharacters⟩
      · rw [hblank] at hlayout
        cases hlayout
      · exact hcomment hlayout
      · exact hfirst token htoken hproper (by rw [hcharacters, List.head?_cons])

theorem Spelled.head?_ne_hyphen
    (h : Spelled tokens after) :
    after.head? ≠ some '-' := by
  refine h.head?_ne (by decide) (by decide) fun token _ hproper => ?_
  obtain ⟨c, rest, hcharacters, _, _, hne, _⟩ := hproper.head_characters
  simpa [hcharacters] using hne

theorem Spelled.head?_ne_apostrophe
    (h : Spelled tokens after)
    (htokens : ∀ token ∈ tokens.head?, ¬ token.IsQuoted) :
    after.head? ≠ some '\'' := by
  refine h.head?_ne (by decide) (by decide) fun token htoken hproper => ?_
  obtain ⟨c, rest, hcharacters, _, _, _, hquoted⟩ := hproper.head_characters
  simpa [hcharacters] using fun hc => htokens token htoken (hquoted hc)

theorem EndsAt.delimited
    (hends : token.EndsAt after)
    (h : Spelled tokens after)
    (hapart : Apart (token :: tokens)) :
    token.Delimited after := by
  cases token with
  | word text => exact hends
  | quoted text =>
      refine h.head?_ne_apostrophe fun next hnext => ?_
      exact List.IsChain.rel_head? hapart hnext trivial
  | colon => exact h.head?_ne_hyphen
  | opening | closing | comma | dot | question | arrow | plus | star => exact trivial

/-- The scanner reads every spelling of tokens in which no string comes after a string. -/
theorem scan?_of_spelled
    (h : Spelled tokens cs)
    (hapart : Apart tokens) :
    scan? cs = some tokens := by
  induction h with
  | nil hbefore =>
      refine scan?_of_skip_eq_nil ?_
      rw [Layout.skip_of_before hbefore, Layout.skip]
  | cons hbefore hproper hends hrest ih =>
      -- Only the tokens that follow show that a colon or a string ends here.
      obtain ⟨c, rest, htext, hread⟩ := hproper.read?_eq_some (hends.delimited hrest hapart)
      obtain ⟨d, rest', hcharacters, hblank, hcomment, _⟩ := hproper.head_characters
      have hskip := Layout.skip_of_before hbefore
      rw [hcharacters, List.cons_append, Layout.skip_other hblank hcomment, ← List.cons_append,
        ← hcharacters, htext] at hskip
      rw [scan?_of_skip_eq_cons hskip hread, ih hapart.tail, Option.map_some]

end Scanning

section Joining

variable {token : Token} {tokens after : List Token}

/-- Strings stay apart when other tokens come after these. -/
def Free (tokens : List Token) : Prop :=
  ∀ after, Apart after → Apart (tokens ++ after)

/-- Strings stay apart when other tokens come after these and the first of them is no string. -/
def Guarded (tokens : List Token) : Prop :=
  ∀ after, Apart after → (∀ next ∈ after.head?, ¬ next.IsQuoted) → Apart (tokens ++ after)

theorem Apart.cons
    (h : Apart tokens)
    (htoken : ¬ token.IsQuoted) :
    Apart (token :: tokens) :=
  List.isChain_cons.2 ⟨fun _ _ hquoted => absurd hquoted htoken, h⟩

theorem guarded_single (token : Token) : Guarded [token] :=
  fun _ hafter hhead => List.isChain_cons.2 ⟨fun next hnext _ => hhead next hnext, hafter⟩

theorem Free.guarded (h : Free tokens) : Guarded tokens :=
  fun after hafter _ => h after hafter

theorem Guarded.append_cons
    (h : Guarded tokens)
    (htoken : ¬ token.IsQuoted)
    (hafter : Apart after) :
    Apart (tokens ++ token :: after) := by
  refine h (token :: after) (hafter.cons htoken) fun next hnext => ?_
  cases hnext
  exact htoken

theorem Guarded.free_append
    (h : Guarded tokens)
    (htoken : ¬ token.IsQuoted) :
    Free (tokens ++ [token]) := by
  intro after hafter
  rw [List.append_assoc]
  exact h.append_cons htoken hafter

end Joining

end Token

end Spelling

end Datalog
