import Datalog.Proofs.Source.Leading
import Datalog.Proofs.Source.Reading

/-!
# Parts of a rule that mirror a reader

**Mirroring.** `Grammar.MirrorsAt` says that at a place of a text parts of a rule do what a reader
does on the tokens the text starts with there: they match where it reads something, leave the text
from the tokens on that it leaves, and make the pairs for what it reads.

**Loose mirroring.** A heading takes the colon of a `:-` too, which is no token of its own.  Nothing
goes on after that, so `Grammar.MirrorsLooselyAt` allows for such matches.

**Results.** Each way to combine readers has one lemma about the parts in turn, the alternatives or
the repeated parts.
-/

namespace Datalog

section Mirroring

open Parsing Expression

namespace Grammar

open Reader

variable {α β : Type} {whole : List Char} {parts parts' : List (Expression RuleName)}
variable {p : Reader Token α} {q : Reader Token β}
variable {P : List (Pair RuleName) → α → Prop} {Q : List (Pair RuleName) → β → Prop}
variable {cs : List Char}

/-- Where a text is read, the parts match there, with pairs for what is read, and what they leave
starts with the tokens that the reader leaves. -/
def Follows (whole : List Char) (parts : List (Expression RuleName)) (p : Reader Token α)
    (P : List (Pair RuleName) → α → Prop) (cs : List Char) : Prop :=
  ∀ a tokens, p.Takes (Token.leading cs).1 a tokens →
    ∃ pairs rest,
      grammarRules.Matches whole .spaced (series parts) (Layout.skip cs) (some (pairs, rest)) ∧
        Token.leading rest = (tokens, (Token.leading cs).2) ∧ P pairs a

/-- The parts match where the reader reads something, and only there. -/
structure MirrorsAt (whole : List Char) (parts : List (Expression RuleName)) (p : Reader Token α)
    (P : List (Pair RuleName) → α → Prop) (cs : List Char) : Prop where
  follows : Follows whole parts p P cs
  refuses : p.Refuses (Token.leading cs).1 →
    grammarRules.Matches whole .spaced (series parts) (Layout.skip cs) none

/-- The parts match where the reader reads something.  Where they match besides, no token starts
after what they take. -/
structure MirrorsLooselyAt (whole : List Char) (parts : List (Expression RuleName))
    (p : Reader Token α) (P : List (Pair RuleName) → α → Prop) (cs : List Char) : Prop where
  follows : Follows whole parts p P cs
  refuses : p.Refuses (Token.leading cs).1 →
    grammarRules.Matches whole .spaced (series parts) (Layout.skip cs) none ∨
      ∃ pairs rest,
        grammarRules.Matches whole .spaced (series parts) (Layout.skip cs) (some (pairs, rest)) ∧
          (Token.leading cs).1 ≠ [] ∧ (Token.leading rest).1 = []

theorem MirrorsAt.loosely
    (h : MirrorsAt whole parts p P cs) :
    MirrorsLooselyAt whole parts p P cs :=
  ⟨h.follows, fun hnone => Or.inl (h.refuses hnone)⟩

/-- Only what a reader takes counts. -/
theorem MirrorsAt.congr
    {r : Reader Token α}
    (h : MirrorsAt whole parts p P cs)
    (htakes : ∀ a tokens,
      r.Takes (Token.leading cs).1 a tokens ↔ p.Takes (Token.leading cs).1 a tokens) :
    MirrorsAt whole parts r P cs := by
  refine ⟨fun a tokens hr => h.follows a tokens ((htakes a tokens).1 hr), fun hnone => ?_⟩
  rw [refuses_iff] at hnone
  exact h.refuses (refuses_iff.2 fun a tokens hp => hnone a tokens ((htakes a tokens).2 hp))

theorem Follows.map
    {f : α → β}
    (h : Follows whole parts p P cs)
    (hpairs : ∀ pairs a, P pairs a → Q pairs (f a)) :
    Follows whole parts (Reader.map f p) Q cs := by
  intro b tokens htakes
  obtain ⟨a, hp, rfl⟩ := takes_map.1 htakes
  obtain ⟨pairs, rest, hmatch, hrest, hP⟩ := h a tokens hp
  exact ⟨pairs, rest, hmatch, hrest, hpairs pairs a hP⟩

theorem MirrorsAt.map
    {f : α → β}
    (h : MirrorsAt whole parts p P cs)
    (hpairs : ∀ pairs a, P pairs a → Q pairs (f a)) :
    MirrorsAt whole parts (Reader.map f p) Q cs :=
  ⟨h.follows.map hpairs, fun hnone => h.refuses (refuses_of_map hnone)⟩

theorem MirrorsLooselyAt.map
    {f : α → β}
    (h : MirrorsLooselyAt whole parts p P cs)
    (hpairs : ∀ pairs a, P pairs a → Q pairs (f a)) :
    MirrorsLooselyAt whole parts (Reader.map f p) Q cs :=
  ⟨h.follows.map hpairs, fun hnone => h.refuses (refuses_of_map hnone)⟩

section InTurn

/-- Pairs that fall into those of two things read in turn. -/
def InTurn (P : List (Pair RuleName) → α → Prop) (Q : List (Pair RuleName) → β → Prop)
    (pairs : List (Pair RuleName)) (both : α × β) : Prop :=
  ∃ ps qs, pairs = ps ++ qs ∧ P ps both.1 ∧ Q qs both.2

/-- What follows the layout after the first parts decides about all parts. -/
theorem matches_append
    (hparts : parts ≠ [])
    (hparts' : parts' ≠ [])
    {pairs : List (Pair RuleName)} {rest : List Char} {outcome : Outcome RuleName}
    (h : grammarRules.Matches whole .spaced (series parts) cs (some (pairs, rest)))
    (h' : grammarRules.Matches whole .spaced (series parts') (Layout.skip rest) outcome) :
    grammarRules.Matches whole .spaced (series (parts ++ parts')) cs
      (outcome.map fun (others, rest') => (pairs ++ others, rest')) := by
  refine Rules.Matches.series_append hparts hparts' ?_
  cases outcome with
  | none => exact .both_second_none h (.both_second_none (matches_layout rest) h')
  | some found => exact .both h (.both (matches_layout rest) h')

theorem append_none
    (hparts : parts ≠ [])
    (hparts' : parts' ≠ [])
    (h : grammarRules.Matches whole .spaced (series parts) cs none) :
    grammarRules.Matches whole .spaced (series (parts ++ parts')) cs none :=
  Rules.Matches.series_append hparts hparts' (.both_first_none h)

/-- Two readers in turn.  The second one is needed only on texts with fewer tokens, so that a reader
can be one that the lemma is applied to. -/
theorem MirrorsLooselyAt.andThen
    (hparts : parts ≠ [])
    (hparts' : parts' ≠ [])
    (h : MirrorsLooselyAt whole parts p P cs)
    (h' : ∀ rest, (Token.leading rest).1.length < (Token.leading cs).1.length →
      MirrorsAt whole parts' q Q rest) :
    MirrorsAt whole (parts ++ parts') (Reader.andThen p q) (InTurn P Q) cs := by
  constructor
  · rintro ⟨a, b⟩ tokens htakes
    obtain ⟨middle, hp, hq⟩ := takes_andThen.1 htakes
    obtain ⟨pairs, rest, hmatch, hrest, hpairs⟩ := h.follows a middle hp
    have hless : (Token.leading rest).1.length < (Token.leading cs).1.length := by
      rw [hrest]
      exact hp.1
    rw [show middle = (Token.leading rest).1 by rw [hrest]] at hq
    obtain ⟨others, rest', hmatch', hrest', hothers⟩ := (h' rest hless).follows b tokens hq
    refine ⟨pairs ++ others, rest', matches_append hparts hparts' hmatch hmatch', ?_, pairs, others,
      rfl, hpairs, hothers⟩
    rw [hrest', hrest]
  · intro hnone
    rcases refuses_of_andThen hnone with hp | ⟨a, middle, hp, hq⟩
    · rcases h.refuses hp with hmatch | ⟨pairs, rest, hmatch, htokens, hrest⟩
      · exact append_none hparts hparts' hmatch
      · have hless : (Token.leading rest).1.length < (Token.leading cs).1.length := by
          rw [hrest]
          exact List.length_pos_iff.2 htokens
        have hq := (h' rest hless).refuses (by rw [hrest]; exact refuses_nil)
        exact matches_append hparts hparts' hmatch hq
    · obtain ⟨pairs, rest, hmatch, hrest, _⟩ := h.follows a middle hp
      have hless : (Token.leading rest).1.length < (Token.leading cs).1.length := by
        rw [hrest]
        exact hp.1
      have hq := (h' rest hless).refuses (by rw [hrest]; exact hq)
      exact matches_append hparts hparts' hmatch hq

end InTurn

section Symbols

/-- No pairs belong to what is read. -/
def NoPairs (pairs : List (Pair RuleName)) (_ : α) : Prop :=
  pairs = []

/-- A reader whose result is dropped makes no pairs. -/
theorem MirrorsAt.before
    (hparts : parts ≠ [])
    (hparts' : parts' ≠ [])
    (h : MirrorsAt whole parts p P cs)
    (h' : ∀ rest, (Token.leading rest).1.length < (Token.leading cs).1.length →
      MirrorsAt whole parts' q NoPairs rest) :
    MirrorsAt whole (parts ++ parts') (Reader.before p q) P cs := by
  refine (h.loosely.andThen hparts hparts' h').map ?_
  rintro _ ⟨a, b⟩ ⟨ps, _, rfl, hps, rfl⟩
  rwa [List.append_nil]

theorem MirrorsLooselyAt.after
    (hparts : parts ≠ [])
    (hparts' : parts' ≠ [])
    (h : MirrorsLooselyAt whole parts p NoPairs cs)
    (h' : ∀ rest, (Token.leading rest).1.length < (Token.leading cs).1.length →
      MirrorsAt whole parts' q Q rest) :
    MirrorsAt whole (parts ++ parts') (Reader.after p q) Q cs := by
  refine (h.andThen hparts hparts' h').map ?_
  rintro _ ⟨a, b⟩ ⟨_, qs, rfl, rfl, hqs⟩
  exact hqs

/-- The characters of a token that is read wherever they stand. -/
theorem mirrorsAt_literal
    (text : String) (token : Token)
    (hcharacters : token.characters = text.toList)
    (hread : ∀ rest, ∃ c tail, text.toList ++ rest = c :: tail ∧
      Token.read? c tail = some (token, rest))
    (cs : List Char) :
    MirrorsAt whole [.literal text] (symbol token) NoPairs cs := by
  constructor
  · intro _ tokens htakes
    obtain ⟨after, hskip, hafter⟩ := Token.skip_of_leading (takes_symbol.1 htakes)
    rw [hskip, hcharacters]
    exact ⟨[], after, .literal text after, hafter, rfl⟩
  · intro hnone
    refine .literal_none ?_
    rintro ⟨rest, hrest⟩
    obtain ⟨c, tail, heq, hc⟩ := hread rest
    have hfirst : Token.first? cs = some (token, rest) :=
      (Token.first?_of_skip_eq_cons (hrest.symm.trans heq)).trans hc
    rw [Token.leading_of_some hfirst] at hnone
    exact refuses_iff.1 hnone () _ (takes_symbol.2 rfl)

end Symbols

section Repeating

/-- A reader that is repeated reads as the repeated parts match. -/
theorem matches_repeated
    (h : ∀ rest, MirrorsAt whole parts q Q rest)
    (cs : List Char) {items : List β} {tokens : List Token}
    (hmany : ∃ hle, many q (Token.leading cs).1 = (items, ⟨tokens, hle⟩)) :
    ∃ pairs rest,
      grammarRules.Matches whole .spaced (.repeated (.both .layout (series parts))) cs
        (some (pairs, rest)) ∧
      Token.leading rest = (tokens, (Token.leading cs).2) ∧ Sequence Q pairs items := by
  -- The induction is on the tokens, which are those that some text starts with.
  obtain ⟨all, hall⟩ : ∃ all, (Token.leading cs).1 = all := ⟨_, rfl⟩
  rw [hall] at hmany
  obtain ⟨hle, hmany⟩ := hmany
  fun_induction many q all generalizing cs items tokens with
  | case1 all hnone =>
      cases hmany
      subst hall
      have hmatch := (h cs).refuses hnone
      exact ⟨[], cs, .repeated_stop (.both_second_none (matches_layout cs) hmatch), rfl, .nil⟩
  | case2 all b middle hlt hread others rest hle' hothers ih =>
      cases hmany
      subst hall
      obtain ⟨pairs, rest₁, hmatch, hrest₁, hpairs⟩ := (h cs).follows b middle ⟨hlt, hread⟩
      obtain ⟨pairs', rest₂, hmatch', hrest₂, hpairs'⟩ :=
        ih rest₁ (by rw [hrest₁]) hle' hothers
      refine ⟨pairs ++ pairs', rest₂, .repeated_more (.both (matches_layout cs) hmatch) hmatch', ?_,
        .cons hpairs hpairs'⟩
      rw [hrest₂, hrest₁]

theorem matches_of_both_layout
    {e : Expression RuleName} {outcome : Outcome RuleName}
    (h : grammarRules.Matches whole .spaced (.both .layout e) cs outcome) :
    grammarRules.Matches whole .spaced e (Layout.skip cs) outcome := by
  cases h with
  | both hlayout h =>
      cases hlayout.deterministic (matches_layout cs)
      exact h
  | both_first_none hlayout => cases hlayout.deterministic (matches_layout cs)
  | both_second_none hlayout h =>
      cases hlayout.deterministic (matches_layout cs)
      exact h

theorem matches_zeroOrMore
    (h : ∀ rest, MirrorsAt whole parts q Q rest)
    (cs : List Char) {items : List β} {tokens : List Token}
    (hmany : ∃ hle, many q (Token.leading cs).1 = (items, ⟨tokens, hle⟩)) :
    ∃ pairs rest,
      grammarRules.Matches whole .spaced (zeroOrMore (series parts)) (Layout.skip cs)
        (some (pairs, rest)) ∧
      Token.leading rest = (tokens, (Token.leading cs).2) ∧ Sequence Q pairs items := by
  obtain ⟨pairs, rest, hmatch, hrest, hpairs⟩ := matches_repeated h cs hmany
  cases hmatch with
  | repeated_stop hstop =>
      refine ⟨[], Layout.skip cs, .either_second (.both_first_none ?_) .empty, ?_, hpairs⟩
      · exact matches_of_both_layout hstop
      · rw [Token.leading_skip, hrest]
  | repeated_more hitem hothers =>
      exact ⟨_, rest, .either_first (.both (matches_of_both_layout hitem) hothers), hrest, hpairs⟩

/-- The first part and then the repeated ones, up to where the repeated reader stops. -/
theorem Follows.thenMany
    (hparts : parts ≠ [])
    (h : Follows whole parts p P cs)
    (h' : ∀ rest, MirrorsAt whole parts' q Q rest) :
    Follows whole (parts ++ [zeroOrMore (series parts')]) (Reader.thenMany p q)
      (InTurn P (Sequence Q)) cs := by
  rintro ⟨a, items⟩ tokens htakes
  obtain ⟨middle, hp, hmany⟩ := takes_thenMany.1 htakes
  obtain ⟨pairs, rest, hmatch, hrest, hpairs⟩ := h a middle hp
  rw [show middle = (Token.leading rest).1 by rw [hrest]] at hmany
  obtain ⟨others, rest', hmatch', hrest', hothers⟩ := matches_zeroOrMore h' rest hmany
  have hwhole := matches_append hparts (List.cons_ne_nil (zeroOrMore (series parts')) []) hmatch
    hmatch'
  exact ⟨pairs ++ others, rest', hwhole, by rw [hrest', hrest], pairs, others, rfl, hpairs, hothers⟩

theorem MirrorsAt.thenMany
    (hparts : parts ≠ [])
    (h : MirrorsAt whole parts p P cs)
    (h' : ∀ rest, MirrorsAt whole parts' q Q rest) :
    MirrorsAt whole (parts ++ [zeroOrMore (series parts')]) (Reader.thenMany p q)
      (InTurn P (Sequence Q)) cs :=
  ⟨h.follows.thenMany hparts h', fun hnone =>
    append_none hparts (List.cons_ne_nil _ _) (h.refuses (refuses_of_thenMany hnone))⟩

/-- Where no token starts, no item is read, and none matches. -/
theorem MirrorsLooselyAt.thenMany
    (hparts : parts ≠ [])
    (h : MirrorsLooselyAt whole parts p P cs)
    (h' : ∀ rest, MirrorsAt whole parts' q Q rest) :
    MirrorsLooselyAt whole (parts ++ [zeroOrMore (series parts')]) (Reader.thenMany p q)
      (InTurn P (Sequence Q)) cs := by
  refine ⟨h.follows.thenMany hparts h', fun hnone => ?_⟩
  rcases h.refuses (refuses_of_thenMany hnone) with hmatch | ⟨pairs, rest, hmatch, htokens, hrest⟩
  · exact Or.inl (append_none hparts (List.cons_ne_nil _ _) hmatch)
  · have hstop := (h' rest).refuses (by rw [hrest]; exact refuses_nil)
    have hmatch' : grammarRules.Matches whole .spaced (zeroOrMore (series parts'))
        (Layout.skip rest) (some ([], Layout.skip rest)) :=
      .either_second (.both_first_none hstop) .empty
    have hwhole := matches_append hparts (List.cons_ne_nil (zeroOrMore (series parts')) [])
      hmatch hmatch'
    exact Or.inr ⟨_, Layout.skip rest, hwhole, htokens, by rw [Token.leading_skip, hrest]⟩

end Repeating

section Alternatives

variable {first second : Expression RuleName} {r : Reader Token α}

/-- The second alternative counts where the first one does not match. -/
theorem MirrorsAt.orElse
    (h : MirrorsAt whole [first] p P cs)
    (h' : MirrorsAt whole [second] r P cs) :
    MirrorsAt whole [.either first second] (Reader.orElse p r) P cs := by
  constructor
  · intro a tokens htakes
    rcases takes_orElse.1 htakes with hp | ⟨hp, hr⟩
    · obtain ⟨pairs, rest, hmatch, hrest, hpairs⟩ := h.follows a tokens hp
      exact ⟨pairs, rest, .either_first hmatch, hrest, hpairs⟩
    · obtain ⟨pairs, rest, hmatch, hrest, hpairs⟩ := h'.follows a tokens hr
      exact ⟨pairs, rest, .either_second (h.refuses hp) hmatch, hrest, hpairs⟩
  · intro hnone
    obtain ⟨hp, hr⟩ := refuses_orElse.1 hnone
    exact .either_second (h.refuses hp) (h'.refuses hr)

end Alternatives

section Calls

variable {name : RuleName} {R : List (Pair RuleName) → α → Prop}

/-- A normal rule makes one pair. -/
theorem matches_call
    (hkind : name.kind = .normal)
    {inner : List (Pair RuleName)} {rest : List Char}
    (h : grammarRules.Matches whole .spaced name.body cs (some (inner, rest))) :
    ∃ used, grammarRules.Matches whole .spaced (.call name) cs
      (some ([.node name used inner], rest)) := by
  obtain ⟨used, rfl⟩ := h.exists_append
  have hbody : grammarRules.Matches whole ((grammarRules.kind name).mode .spaced)
      (grammarRules.body name) (used ++ rest) (some (inner, rest)) := by
    rw [show grammarRules.kind name = .normal from hkind]
    exact h
  have hcall := hbody.call
  rw [show grammarRules.kind name = .normal from hkind] at hcall
  exact ⟨_, hcall⟩

theorem call_none
    (hkind : name.kind = .normal)
    (h : grammarRules.Matches whole .spaced name.body cs none) :
    grammarRules.Matches whole .spaced (.call name) cs none := by
  refine .call_none ?_
  rw [show grammarRules.kind name = .normal from hkind]
  exact h

theorem Follows.call
    (h : Follows whole parts p P cs)
    (hkind : name.kind = .normal)
    (hbody : name.body = series parts)
    (hpairs : ∀ used inner a, P inner a → R [.node name used inner] a) :
    Follows whole [.call name] p R cs := by
  intro a tokens htakes
  obtain ⟨inner, rest, hmatch, hrest, hinner⟩ := h a tokens htakes
  rw [← hbody] at hmatch
  obtain ⟨used, hcall⟩ := matches_call hkind hmatch
  exact ⟨_, rest, hcall, hrest, hpairs used inner a hinner⟩

theorem MirrorsAt.call
    (h : MirrorsAt whole parts p P cs)
    (hkind : name.kind = .normal)
    (hbody : name.body = series parts)
    (hpairs : ∀ used inner a, P inner a → R [.node name used inner] a) :
    MirrorsAt whole [.call name] p R cs := by
  refine ⟨h.follows.call hkind hbody hpairs, fun hnone => call_none hkind ?_⟩
  rw [hbody]
  exact h.refuses hnone

theorem MirrorsLooselyAt.call
    (h : MirrorsLooselyAt whole parts p P cs)
    (hkind : name.kind = .normal)
    (hbody : name.body = series parts)
    (hpairs : ∀ used inner a, P inner a → R [.node name used inner] a) :
    MirrorsLooselyAt whole [.call name] p R cs := by
  refine ⟨h.follows.call hkind hbody hpairs, fun hnone => ?_⟩
  rcases h.refuses hnone with hmatch | ⟨inner, rest, hmatch, htokens, hrest⟩
  · rw [← hbody] at hmatch
    exact Or.inl (call_none hkind hmatch)
  · rw [← hbody] at hmatch
    obtain ⟨used, hcall⟩ := matches_call hkind hmatch
    exact Or.inr ⟨_, rest, hcall, htokens, hrest⟩

end Calls

end Grammar

end Mirroring

end Datalog
