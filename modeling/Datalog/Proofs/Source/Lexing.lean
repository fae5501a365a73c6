import Datalog.Proofs.Source.Expressions
import Datalog.Proofs.Source.Spelling
import Datalog.Source.Grammar
import Datalog.Source.GrammarRules

/-!
# How the grammar takes layout, words and strings

**Layout.** What the rules for blanks and comments take is what the scanner skips.

**Words and strings.** The rules for identifiers and strings take what the scanner reads as one
token.
-/

namespace Datalog

section Lexing

open Parsing Expression

variable {whole : List Char} {cs rest : List Char} {c : Char}

section Layouts

theorem exists_blank_of_mem
    {found : String}
    (h : found ∈ [" ", "\t", "\r", "\n"]) :
    ∃ d, found.toList = [d] ∧ Layout.isBlank d = true := by
  simp only [List.mem_cons, List.not_mem_nil, or_false] at h
  rcases h with rfl | rfl | rfl | rfl <;> exact ⟨_, rfl, rfl⟩

theorem matches_whitespace
    (h : Layout.isBlank c = true) :
    grammarRules.Matches whole .atomic (.call .whitespace) (c :: rest) (some ([], rest)) := by
  refine Rules.Matches.call_atomic ?_
  rcases Rules.Matches.choice_literals grammarRules whole .atomic " " ["\t", "\r", "\n"] (c :: rest)
    with ⟨found, hfound, rest', hcs, hmatch⟩ | ⟨hnone, _⟩
  · obtain ⟨d, hd, _⟩ := exists_blank_of_mem hfound
    rw [hd, List.singleton_append] at hcs
    obtain ⟨_, rfl⟩ := List.cons.inj hcs
    exact hmatch
  · simp only [Layout.isBlank, Bool.or_eq_true, beq_iff_eq] at h
    rcases h with ((rfl | rfl) | rfl) | rfl
    · exact absurd ⟨rest, rfl⟩ (hnone " " (by simp))
    · exact absurd ⟨rest, rfl⟩ (hnone "\t" (by simp))
    · exact absurd ⟨rest, rfl⟩ (hnone "\r" (by simp))
    · exact absurd ⟨rest, rfl⟩ (hnone "\n" (by simp))

theorem whitespace_none
    (h : ∀ c ∈ cs.head?, Layout.isBlank c = false) :
    grammarRules.Matches whole .atomic (.call .whitespace) cs none := by
  refine Rules.Matches.call_atomic ?_
  rcases Rules.Matches.choice_literals grammarRules whole .atomic " " ["\t", "\r", "\n"] cs with
    ⟨found, hfound, rest, rfl, _⟩ | ⟨_, hmatch⟩
  · obtain ⟨d, hd, hblank⟩ := exists_blank_of_mem hfound
    rw [h d (by simp [hd])] at hblank
    cases hblank
  · exact hmatch

section Runs

variable {unwanted : Expression RuleName}

theorem matches_anyBut
    (h : grammarRules.Matches whole .atomic unwanted (c :: rest) none) :
    grammarRules.Matches whole .atomic (RuleName.anyBut unwanted) (c :: rest) (some ([], rest)) :=
  Rules.Matches.series_atomic (.both (.absent h) (.character rfl))

theorem anyBut_none
    {pairs : List (Pair RuleName)}
    (h : grammarRules.Matches whole .atomic unwanted cs (some (pairs, rest))) :
    grammarRules.Matches whole .atomic (RuleName.anyBut unwanted) cs none :=
  Rules.Matches.series_atomic (.both_first_none (.absent_none h))

theorem anyBut_nil
    (h : grammarRules.Matches whole .atomic unwanted [] none) :
    grammarRules.Matches whole .atomic (RuleName.anyBut unwanted) [] none :=
  Rules.Matches.series_atomic (.both_second_none (.absent h) (.character_none nofun))

end Runs

section Comments

theorem matches_blockInner
    {after : List Char}
    (h : Layout.afterBlock? cs = some after) :
    grammarRules.Matches whole .atomic (.repeated (RuleName.anyBut (.literal "|#"))) cs
      (some ([], '|' :: '#' :: after)) := by
  fun_induction Layout.afterBlock? cs with
  | case1 => cases h
  | case2 =>
      cases h
      exact .repeated_stop (anyBut_none (.literal "|#" after))
  | case3 c rest hother ih =>
      refine .repeated_more (matches_anyBut (.literal_none ?_)) (ih h)
      rintro ⟨tail, htail⟩
      obtain ⟨rfl, rfl⟩ := List.cons.inj htail
      exact hother tail rfl rfl

theorem matches_blockInner_of_none
    (h : Layout.afterBlock? cs = none) :
    grammarRules.Matches whole .atomic (.repeated (RuleName.anyBut (.literal "|#"))) cs
      (some ([], [])) := by
  fun_induction Layout.afterBlock? cs with
  | case1 => exact .repeated_stop (anyBut_nil (.literal_none (by simp)))
  | case2 rest => cases h
  | case3 c rest hother ih =>
      refine .repeated_more (matches_anyBut (.literal_none ?_)) (ih h)
      rintro ⟨tail, htail⟩
      obtain ⟨rfl, rfl⟩ := List.cons.inj htail
      exact hother tail rfl rfl

theorem matches_newline
    (h : Layout.endsLine c = true) :
    ∃ rest',
      grammarRules.Matches whole .atomic RuleName.newline (c :: rest) (some ([], rest')) := by
  rcases Rules.Matches.choice_literals grammarRules whole .atomic "\n" ["\r\n", "\r"] (c :: rest)
    with ⟨_, _, rest', _, hmatch⟩ | ⟨hnone, _⟩
  · exact ⟨rest', hmatch⟩
  · simp only [Layout.endsLine, Bool.or_eq_true, beq_iff_eq] at h
    rcases h with rfl | rfl
    · exact absurd ⟨rest, rfl⟩ (hnone "\r" (by simp))
    · exact absurd ⟨rest, rfl⟩ (hnone "\n" (by simp))

theorem newline_none
    (h : ∀ c ∈ cs.head?, Layout.endsLine c = false) :
    grammarRules.Matches whole .atomic RuleName.newline cs none := by
  rcases Rules.Matches.choice_literals grammarRules whole .atomic "\n" ["\r\n", "\r"] cs with
    ⟨found, hfound, rest, rfl, _⟩ | ⟨_, hmatch⟩
  · simp only [List.mem_cons, List.not_mem_nil, or_false] at hfound
    rcases hfound with rfl | rfl | rfl <;> cases h _ rfl
  · exact hmatch

theorem matches_lineInner (cs : List Char) :
    grammarRules.Matches whole .atomic (.repeated (RuleName.anyBut RuleName.newline)) cs
      (some ([], Layout.afterLine cs)) := by
  induction cs with
  | nil => exact .repeated_stop (anyBut_nil (newline_none nofun))
  | cons c rest ih =>
      unfold Layout.afterLine at ih ⊢
      rw [List.dropWhile_cons]
      cases hends : Layout.endsLine c with
      | true =>
          obtain ⟨rest', hnewline⟩ := matches_newline hends
          exact .repeated_stop (anyBut_none hnewline)
      | false =>
          exact .repeated_more (matches_anyBut (newline_none (by simpa using hends))) ih

theorem matches_lineComment (rest : List Char) :
    grammarRules.Matches whole .atomic (.call .lineComment) ('#' :: rest)
      (some ([], Layout.afterLine rest)) := by
  refine Rules.Matches.call_atomic (Rules.Matches.series_atomic ?_)
  exact .both (.literal "#" rest) (matches_lineInner rest).zeroOrMore_atomic

theorem matches_blockComment
    {inner after : List Char}
    (h : Layout.afterBlock? inner = some after) :
    grammarRules.Matches whole .atomic (.call .blockComment) ('#' :: '|' :: inner)
      (some ([], after)) := by
  refine Rules.Matches.call_atomic (Rules.Matches.series_atomic ?_)
  refine .both (.literal "#|" inner) (Rules.Matches.series_atomic ?_)
  exact .both (matches_blockInner h).zeroOrMore_atomic (.literal "|#" after)

/-- A comment that opens a block without an end is no block comment. -/
theorem blockComment_none
    (h : ∀ inner, rest = '|' :: inner → Layout.afterBlock? inner = none) :
    grammarRules.Matches whole .atomic (.call .blockComment) ('#' :: rest) none := by
  refine Rules.Matches.call_atomic (Rules.Matches.series_atomic ?_)
  by_cases hopen : "#|".toList <+: '#' :: rest
  · obtain ⟨inner, hinner⟩ := hopen
    obtain ⟨_, rfl⟩ := List.cons.inj hinner
    refine .both_second_none (.literal "#|" inner) (Rules.Matches.series_atomic ?_)
    exact .both_second_none (matches_blockInner_of_none (h inner rfl)).zeroOrMore_atomic
      (.literal_none (by simp))
  · exact .both_first_none (.literal_none hopen)

theorem matches_comment (rest : List Char) :
    grammarRules.Matches whole .atomic (.call .comment) ('#' :: rest)
      (some ([], Layout.afterComment rest)) := by
  refine Rules.Matches.call_atomic ?_
  unfold Layout.afterComment
  split
  · rename_i inner
    cases hblock : Layout.afterBlock? inner with
    | some after => exact .either_first (matches_blockComment hblock)
    | none =>
        refine .either_second (blockComment_none fun inner' hinner => ?_) (matches_lineComment _)
        cases hinner
        exact hblock
  · rename_i hother
    exact .either_second (blockComment_none fun inner hinner => absurd hinner (hother inner))
      (matches_lineComment _)

theorem comment_none
    (h : cs.head? ≠ some '#') :
    grammarRules.Matches whole .atomic (.call .comment) cs none := by
  have hblock : ¬ "#|".toList <+: cs := by
    rintro ⟨_, rfl⟩
    exact h rfl
  have hline : ¬ "#".toList <+: cs := by
    rintro ⟨_, rfl⟩
    exact h rfl
  refine Rules.Matches.call_atomic (.either_second ?_ ?_)
  · exact Rules.Matches.call_atomic
      (Rules.Matches.series_atomic (.both_first_none (.literal_none hblock)))
  · exact Rules.Matches.call_atomic
      (Rules.Matches.series_atomic (.both_first_none (.literal_none hline)))

end Comments

theorem matches_blanks (cs : List Char) :
    grammarRules.Matches whole .atomic (.repeated (.call .whitespace)) cs
      (some ([], cs.dropWhile Layout.isBlank)) := by
  induction cs with
  | nil => exact .repeated_stop (whitespace_none nofun)
  | cons c rest ih =>
      rw [List.dropWhile_cons]
      cases hblank : Layout.isBlank c with
      | true => exact .repeated_more (matches_whitespace hblank) ih
      | false => exact .repeated_stop (whitespace_none (by simpa using hblank))

/-- After the first blanks, the comments with the blanks after them are the rest of the layout. -/
theorem matches_comments (cs : List Char) :
    grammarRules.Matches whole .atomic
      (.repeated (.both (.call .comment) (.repeated (.call .whitespace))))
      (cs.dropWhile Layout.isBlank) (some ([], Layout.skip cs)) := by
  fun_induction Layout.skip cs with
  | case1 => exact .repeated_stop (.both_first_none (comment_none (by simp)))
  | case2 c rest hblank ih =>
      rw [List.dropWhile_cons, if_pos hblank]
      exact ih
  | case3 rest _ ih => exact .repeated_more (.both (matches_comment rest) (matches_blanks _)) ih
  | case4 c rest hblank hcomment =>
      rw [List.dropWhile_cons, if_neg hblank]
      exact .repeated_stop (.both_first_none (comment_none (by simpa using hcomment)))

/-- The layout of the grammar is what the scanner skips. -/
theorem matches_layout (cs : List Char) :
    grammarRules.Matches whole .spaced .layout cs (some ([], Layout.skip cs)) :=
  .layout_spaced (.both (matches_blanks cs) (matches_comments cs))

end Layouts

section Words

/-- The characters of a word that a text starts with. -/
def leadingWord (cs : List Char) : List Char :=
  cs.takeWhile Char.isAlphanum

/-- The text after the word that it starts with. -/
def afterWord (cs : List Char) : List Char :=
  cs.dropWhile Char.isAlphanum

theorem matches_wordRest (cs : List Char) :
    grammarRules.Matches whole .atomic (.repeated (.character Char.isAlphanum)) cs
      (some ([], afterWord cs)) := by
  induction cs with
  | nil => exact .repeated_stop (.character_none nofun)
  | cons c rest ih =>
      unfold afterWord at ih ⊢
      rw [List.dropWhile_cons]
      cases halnum : c.isAlphanum with
      | true => exact .repeated_more (.character halnum) ih
      | false => exact .repeated_stop (.character_none (by simpa using halnum))

theorem isAlphanum_of_mem_keywords
    {keyword : String}
    (h : keyword ∈ Grammar.keywords) :
    ∀ c ∈ keyword.toList, c.isAlphanum = true := by
  simp only [Grammar.keywords, List.mem_cons, List.not_mem_nil, or_false] at h
  rcases h with rfl | rfl | rfl | rfl <;> exact List.all_eq_true.1 rfl

/-- No keyword goes on as another one. -/
theorem eq_of_keyword_isPrefix
    {keyword other : String}
    (h : keyword ∈ Grammar.keywords)
    (hother : other ∈ Grammar.keywords)
    (hfront : keyword.toList <+: other.toList) :
    keyword = other := by
  have hkeywords : ∀ keyword ∈ Grammar.keywords, ∀ other ∈ Grammar.keywords,
      keyword.toList <+: other.toList → keyword = other := by decide
  exact hkeywords keyword h other hother hfront

theorem head?_afterWord (cs : List Char) :
    ∀ c ∈ (afterWord cs).head?, c.isAlphanum = false := by
  intro c hc
  have hnot := List.head?_dropWhile_not Char.isAlphanum cs
  rw [show cs.dropWhile Char.isAlphanum = afterWord cs from rfl, hc] at hnot
  simpa using hnot

theorem matches_keyword
    (h : String.ofList (leadingWord cs) ∈ Grammar.keywords) :
    grammarRules.Matches whole .atomic (.call .keyword) cs (some ([], afterWord cs)) := by
  have hsplit : leadingWord cs ++ afterWord cs = cs := List.takeWhile_append_dropWhile
  have hword : (String.ofList (leadingWord cs)).toList = leadingWord cs := String.toList_ofList
  have hfront : (String.ofList (leadingWord cs)).toList <+: cs :=
    ⟨afterWord cs, by rw [hword, hsplit]⟩
  refine Rules.Matches.call_atomic (Rules.Matches.series_atomic ?_)
  rcases Rules.Matches.choice_literals grammarRules whole .atomic "Schemes"
    ["Facts", "Rules", "Queries"] cs with ⟨found, hfound, rest, hcs, hmatch⟩ | ⟨hnone, _⟩
  · have heq : found = String.ofList (leadingWord cs) := by
      rcases List.prefix_or_prefix_of_prefix ⟨rest, hcs.symm⟩ hfront with hle | hle
      · exact eq_of_keyword_isPrefix hfound h hle
      · exact (eq_of_keyword_isPrefix h hfound hle).symm
    have hrest : rest = afterWord cs := by
      rw [heq, hword] at hcs
      exact List.append_cancel_left (hcs.symm.trans hsplit.symm)
    rw [hrest] at hmatch
    exact .both hmatch (.absent (.character_none (head?_afterWord cs)))
  · exact absurd hfront (hnone _ h)

theorem keyword_none
    (h : String.ofList (leadingWord cs) ∉ Grammar.keywords) :
    grammarRules.Matches whole .atomic (.call .keyword) cs none := by
  refine Rules.Matches.call_atomic (Rules.Matches.series_atomic ?_)
  rcases Rules.Matches.choice_literals grammarRules whole .atomic "Schemes"
    ["Facts", "Rules", "Queries"] cs with ⟨found, hfound, rest, rfl, hmatch⟩ | ⟨_, hmatch⟩
  · -- A longer word starts with the keyword.
    by_cases hends : ∀ c ∈ rest.head?, c.isAlphanum = false
    · have hword : leadingWord (found.toList ++ rest) = found.toList :=
        (Layout.takeWhile_dropWhile_append (isAlphanum_of_mem_keywords hfound) hends).1
      rw [hword, String.ofList_toList] at h
      exact absurd hfound h
    · cases rest with
      | nil => exact absurd nofun hends
      | cons c rest =>
          have halnum : c.isAlphanum = true := by simpa using hends
          exact .both_second_none hmatch (.absent_none (.character halnum))
  · exact .both_first_none hmatch

theorem leadingWord_cons
    (h : c.isAlpha = true) :
    leadingWord (c :: rest) = c :: leadingWord rest ∧ afterWord (c :: rest) = afterWord rest := by
  have halnum : c.isAlphanum = true := by simp [Char.isAlphanum, h]
  exact ⟨by rw [leadingWord, List.takeWhile_cons, if_pos halnum]; rfl,
    by rw [afterWord, List.dropWhile_cons, if_pos halnum]; rfl⟩

/-- A word that is no keyword is an identifier. -/
theorem matches_identifier
    (halpha : c.isAlpha = true)
    (hkeyword : String.ofList (c :: leadingWord rest) ∉ Grammar.keywords) :
    grammarRules.Matches whole .spaced (.call .identifier) (c :: rest)
      (some ([.node .identifier (String.ofList (c :: leadingWord rest)) []], afterWord rest)) := by
  have hsplit : c :: rest = c :: leadingWord rest ++ afterWord rest := by
    rw [List.cons_append, leadingWord, afterWord, List.takeWhile_append_dropWhile]
  rw [← (leadingWord_cons halpha).1] at hkeyword
  have hbody : grammarRules.Matches whole .atomic (RuleName.body .identifier) (c :: rest)
      (some ([], afterWord rest)) := by
    refine Rules.Matches.series_atomic (.both (.absent (keyword_none hkeyword)) ?_)
    exact Rules.Matches.series_atomic
      (.both (.character halpha) (matches_wordRest rest).zeroOrMore_atomic)
  rw [hsplit] at hbody ⊢
  exact .call hbody

/-- A text that starts with no word, or with a keyword, starts with no identifier. -/
theorem identifier_none
    (h : ∀ c rest, cs = c :: rest → c.isAlpha = true →
      String.ofList (c :: leadingWord rest) ∈ Grammar.keywords) :
    grammarRules.Matches whole .spaced (.call .identifier) cs none := by
  refine .call_none (Rules.Matches.series_atomic ?_)
  by_cases hkeyword : String.ofList (leadingWord cs) ∈ Grammar.keywords
  · exact .both_first_none (.absent_none (matches_keyword hkeyword))
  · refine .both_second_none (.absent (keyword_none hkeyword)) (Rules.Matches.series_atomic ?_)
    refine .both_first_none (.character_none fun c hc => ?_)
    obtain ⟨rest, rfl⟩ := List.head?_eq_some_iff.1 hc
    by_contra halpha
    rw [Bool.not_eq_false] at halpha
    rw [(leadingWord_cons halpha).1] at hkeyword
    exact hkeyword (h c rest rfl halpha)

end Words

section Strings

/-- A doubled apostrophe, or any character that is no apostrophe. -/
def stringPart : Expression RuleName :=
  choice (.literal "''") [RuleName.anyBut (.literal "'")]

theorem stringPart_none
    (h : ∀ c rest, cs = c :: rest → c = '\'' ∧ rest.head? ≠ some '\'') :
    grammarRules.Matches whole .atomic stringPart cs none := by
  cases cs with
  | nil => exact .either_second (.literal_none (by simp)) (anyBut_nil (.literal_none (by simp)))
  | cons c rest =>
      obtain ⟨rfl, hrest⟩ := h c rest rfl
      refine .either_second (.literal_none ?_) (anyBut_none (.literal "'" rest))
      rintro ⟨tail, htail⟩
      obtain ⟨_, rfl⟩ := List.cons.inj htail
      exact hrest rfl

theorem matches_stringPart
    (h : c ≠ '\'') :
    grammarRules.Matches whole .atomic stringPart (c :: rest) (some ([], rest)) := by
  refine .either_second (.literal_none ?_) (matches_anyBut (.literal_none ?_))
  all_goals
    rintro ⟨tail, htail⟩
    exact h (List.cons.inj htail).1.symm

theorem matches_stringParts
    {body after : List Char}
    (h : Token.quotedTail? cs = some (body, after)) :
    grammarRules.Matches whole .atomic (.repeated stringPart) cs
      (some ([], '\'' :: after)) := by
  fun_induction Token.quotedTail? cs generalizing body after with
  | case1 => cases h
  | case2 rest ih =>
      obtain ⟨⟨body', after'⟩, htail, heq⟩ := Option.map_eq_some_iff.1 h
      cases heq
      exact .repeated_more (.either_first (.literal "''" rest)) (ih htail)
  | case3 rest hother =>
      cases h
      refine .repeated_stop (stringPart_none fun c rest' hcs => ?_)
      obtain ⟨rfl, rfl⟩ := List.cons.inj hcs
      exact ⟨rfl, fun hhead => (List.head?_eq_some_iff.1 hhead).elim hother⟩
  | case4 c rest _ hplain ih =>
      obtain ⟨⟨body', after'⟩, htail, heq⟩ := Option.map_eq_some_iff.1 h
      cases heq
      exact .repeated_more (matches_stringPart hplain) (ih htail)

theorem matches_stringParts_of_none
    (h : Token.quotedTail? cs = none) :
    grammarRules.Matches whole .atomic (.repeated stringPart) cs (some ([], [])) := by
  fun_induction Token.quotedTail? cs with
  | case1 => exact .repeated_stop (stringPart_none (by simp))
  | case2 rest ih =>
      exact .repeated_more (.either_first (.literal "''" rest)) (ih (Option.map_eq_none_iff.1 h))
  | case3 => cases h
  | case4 c rest _ hplain ih =>
      exact .repeated_more (matches_stringPart hplain) (ih (Option.map_eq_none_iff.1 h))

/-- A string is an apostrophe with what the scanner reads after it. -/
theorem matches_string
    {body after : List Char}
    (h : Token.quotedTail? rest = some (body, after)) :
    grammarRules.Matches whole .spaced (.call .string) ('\'' :: rest)
      (some ([.node .string (String.ofList ('\'' :: body)) []], after)) := by
  obtain ⟨_, _, _, hrest⟩ := Token.quotedTail?_eq_some h
  have hbody : grammarRules.Matches whole .atomic (RuleName.body .string) ('\'' :: rest)
      (some ([], after)) := by
    refine Rules.Matches.series_atomic (.both (.literal "'" rest) ?_)
    exact Rules.Matches.series_atomic
      (.both (matches_stringParts h).zeroOrMore_atomic (.literal "'" after))
  rw [hrest, ← List.cons_append] at hbody ⊢
  exact .call hbody

theorem string_none
    (h : ∀ rest, cs = '\'' :: rest → Token.quotedTail? rest = none) :
    grammarRules.Matches whole .spaced (.call .string) cs none := by
  refine .call_none (Rules.Matches.series_atomic ?_)
  by_cases hquote : "'".toList <+: cs
  · obtain ⟨rest, rfl⟩ := hquote
    refine .both_second_none (.literal "'" rest) (Rules.Matches.series_atomic ?_)
    exact .both_second_none (matches_stringParts_of_none (h rest rfl)).zeroOrMore_atomic
      (.literal_none (by simp))
  · exact .both_first_none (.literal_none hquote)

end Strings

end Lexing

end Datalog
