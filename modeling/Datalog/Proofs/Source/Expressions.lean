import Datalog.Source.ParsingExpression

/-!
# How parsing expressions match

**Outcomes.** A match takes the front of the text, and an expression has at most one outcome at a
place (`Matches.deterministic`).

**Series.** The parts of two series, with layout between them, are one series.  In an atomic rule
parts and items follow each other directly.

**Choices.** A choice of literals takes one of them that stands in front.
-/

namespace Datalog

section Expressions

namespace Parsing

open Expression

variable {ρ : Type} {rules : Rules ρ} {whole : List Char} {mode : Mode}
variable {first second : Expression ρ} {cs middle rest : List Char}
variable {pairs others : List (Pair ρ)} {outcome outcome' : Outcome ρ}

namespace Rules

section Outcomes

/-- A match takes the front of the text. -/
theorem Matches.exists_append
    (h : rules.Matches whole mode first cs (some (pairs, rest))) :
    ∃ used, cs = used ++ rest := by
  -- Only the matches with a rest count, so the outcome is a variable in the induction.
  generalize hout : some (pairs, rest) = out at h
  induction h generalizing pairs rest with
  | literal text _ =>
      cases hout
      exact ⟨text.toList, rfl⟩
  | @character _ _ c _ _ =>
      cases hout
      exact ⟨[c], rfl⟩
  | start | finish | layout_atomic | repeated_stop | absent =>
      cases hout
      exact ⟨[], rfl⟩
  | @call _ _ used =>
      cases hout
      exact ⟨used, rfl⟩
  | layout_spaced _ ih => exact ih hout
  | either_first _ ih => exact ih hout
  | either_second _ _ _ ih => exact ih hout
  | both _ _ ih ih' | repeated_more _ _ ih ih' =>
      cases hout
      obtain ⟨used, rfl⟩ := ih rfl
      obtain ⟨used', rfl⟩ := ih' rfl
      exact ⟨used ++ used', (List.append_assoc _ _ _).symm⟩
  | literal_none | character_none | start_none | finish_none | call_none | both_first_none
  | both_second_none | absent_none => cases hout

/-- An expression has one outcome at a place. -/
theorem Matches.deterministic
    (h : rules.Matches whole mode first cs outcome)
    (h' : rules.Matches whole mode first cs outcome') :
    outcome = outcome' := by
  induction h generalizing outcome' with
  | literal text rest =>
      generalize hcs : text.toList ++ rest = cs at h'
      cases h' with
      | literal _ rest' => rw [List.append_cancel_left hcs]
      | literal_none habsent => exact absurd ⟨rest, hcs⟩ habsent
  | literal_none habsent =>
      cases h' with
      | literal text rest => exact absurd (List.prefix_append _ _) habsent
      | literal_none _ => rfl
  | character htest =>
      cases h' with
      | character _ => rfl
      | character_none hnone => simp [hnone _ rfl] at htest
  | character_none hnone =>
      cases h' with
      | character htest => simp [hnone _ rfl] at htest
      | character_none _ => rfl
  | start =>
      cases h' with
      | start => rfl
      | start_none hne => exact absurd rfl hne
  | start_none hne =>
      cases h' with
      | start => exact absurd rfl hne
      | start_none _ => rfl
  | finish =>
      cases h' with
      | finish => rfl
      | finish_none hne => exact absurd rfl hne
  | finish_none hne =>
      cases h' with
      | finish => exact absurd rfl hne
      | finish_none _ => rfl
  | @call _ rule used rest inner _ ih =>
      generalize hcs : used ++ rest = cs at h' ih
      cases h' with
      | @call _ _ used' _ _ hbody =>
          cases ih hbody
          rw [List.append_cancel_right hcs]
      | call_none hbody => cases ih hbody
  | call_none _ ih =>
      cases h' with
      | call hbody => cases ih hbody
      | call_none _ => rfl
  | layout_atomic =>
      cases h'
      rfl
  | layout_spaced _ ih =>
      cases h' with
      | layout_spaced hlayout => exact ih hlayout
  | both _ _ ih ih' =>
      cases h' with
      | both hfirst hsecond =>
          cases ih hfirst
          cases ih' hsecond
          rfl
      | both_first_none hfirst => cases ih hfirst
      | both_second_none hfirst hsecond =>
          cases ih hfirst
          cases ih' hsecond
  | both_first_none _ ih =>
      cases h' with
      | both hfirst _ => cases ih hfirst
      | both_first_none _ => rfl
      | both_second_none hfirst _ => cases ih hfirst
  | both_second_none _ _ ih ih' =>
      cases h' with
      | both hfirst hsecond =>
          cases ih hfirst
          cases ih' hsecond
      | both_first_none hfirst => cases ih hfirst
      | both_second_none _ _ => rfl
  | either_first _ ih =>
      cases h' with
      | either_first hfirst => exact ih hfirst
      | either_second hfirst _ => cases ih hfirst
  | either_second _ _ ih ih' =>
      cases h' with
      | either_first hfirst => cases ih hfirst
      | either_second _ hsecond => exact ih' hsecond
  | repeated_stop _ ih =>
      cases h' with
      | repeated_stop _ => rfl
      | repeated_more hitem _ => cases ih hitem
  | repeated_more _ _ ih ih' =>
      cases h' with
      | repeated_stop hitem => cases ih hitem
      | repeated_more hitem hrest =>
          cases ih hitem
          cases ih' hrest
          rfl
  | absent _ ih =>
      cases h' with
      | absent _ => rfl
      | absent_none hunwanted => cases ih hunwanted
  | absent_none _ ih =>
      cases h' with
      | absent hunwanted => cases ih hunwanted
      | absent_none _ => rfl

/-- A text is read in one way by a rule. -/
theorem Reads.unique
    {α : Type} {rule : ρ} {convert : Pair ρ → Option α} {text : String} {read read' : Option α}
    (h : rules.Reads rule convert text read)
    (h' : rules.Reads rule convert text read') :
    read = read' := by
  cases read with
  | none =>
      cases read' with
      | none => rfl
      | some a =>
          obtain ⟨_, _, hmatch, _⟩ := h'
          cases Matches.deterministic h hmatch
  | some a =>
      obtain ⟨pair, rest, hmatch, hconvert⟩ := h
      cases read' with
      | none => cases hmatch.deterministic h'
      | some a' =>
          obtain ⟨pair', rest', hmatch', hconvert'⟩ := h'
          cases hmatch.deterministic hmatch'
          exact hconvert.symm.trans hconvert'

end Outcomes

section Atomic

/-- In an atomic rule other rules match as their expressions do. -/
theorem Matches.call_atomic
    {rule : ρ}
    (h : rules.Matches whole .atomic (rules.body rule) cs outcome) :
    rules.Matches whole .atomic (.call rule) cs outcome := by
  have hmode : (rules.kind rule).mode .atomic = .atomic := by
    cases rules.kind rule <;> rfl
  cases outcome with
  | none => exact .call_none (by rwa [hmode])
  | some found =>
      obtain ⟨pairs, rest⟩ := found
      obtain ⟨used, rfl⟩ := h.exists_append
      have hpairs : (rules.kind rule).pairs .atomic rule used pairs = pairs := by
        cases rules.kind rule <;> rfl
      rw [← hmode] at h
      have hcall := h.call
      rwa [hpairs] at hcall

/-- In an atomic rule no layout is skipped. -/
theorem Matches.both_layout_atomic
    (h : rules.Matches whole .atomic first cs outcome) :
    rules.Matches whole .atomic (.both .layout first) cs outcome := by
  cases outcome with
  | none => exact .both_second_none .layout_atomic h
  | some found => exact .both .layout_atomic h

theorem Matches.empty : rules.Matches whole mode (.literal "") cs (some ([], cs)) :=
  .literal "" cs

/-- In an atomic rule the items of a repetition follow each other directly. -/
theorem Matches.zeroOrMore_atomic
    (h : rules.Matches whole .atomic (.repeated first) cs outcome) :
    rules.Matches whole .atomic (zeroOrMore first) cs outcome := by
  have hrepeated : ∀ {cs outcome}, rules.Matches whole .atomic (.repeated first) cs outcome →
      rules.Matches whole .atomic (.repeated (.both .layout first)) cs outcome := by
    intro cs outcome h
    generalize hitem : Expression.repeated first = item at h
    generalize hmode : Mode.atomic = mode at h
    induction h with
    | repeated_stop hstop =>
        cases hitem
        cases hmode
        exact .repeated_stop hstop.both_layout_atomic
    | repeated_more hfirst _ _ ih =>
        cases hitem
        cases hmode
        exact .repeated_more hfirst.both_layout_atomic (ih rfl rfl)
    | _ => cases hitem
  cases h with
  | repeated_stop hstop => exact .either_second (.both_first_none hstop) .empty
  | repeated_more hfirst hrest => exact .either_first (.both hfirst (hrepeated hrest))

end Atomic

section Choices

/-- A choice of literals takes one that stands in front, or none does. -/
theorem Matches.choice_literals
    (rules : Rules ρ) (whole : List Char) (mode : Mode)
    (text : String) (texts : List String) (cs : List Char) :
    (∃ found ∈ text :: texts, ∃ rest, cs = found.toList ++ rest ∧
      rules.Matches whole mode (choice (.literal text) (texts.map .literal)) cs (some ([], rest))) ∨
    (∀ found ∈ text :: texts, ¬ found.toList <+: cs) ∧
      rules.Matches whole mode (choice (.literal text) (texts.map .literal)) cs none := by
  induction texts generalizing text with
  | nil =>
      by_cases hfront : text.toList <+: cs
      · obtain ⟨rest, rfl⟩ := hfront
        exact Or.inl ⟨text, List.mem_singleton_self _, rest, rfl, .literal text rest⟩
      · exact Or.inr ⟨by simpa using hfront, .literal_none hfront⟩
  | cons next texts ih =>
      by_cases hfront : text.toList <+: cs
      · obtain ⟨rest, rfl⟩ := hfront
        exact Or.inl ⟨text, List.mem_cons_self, rest, rfl, .either_first (.literal text rest)⟩
      · rcases ih next with ⟨found, hfound, rest, hcs, hmatch⟩ | ⟨hnone, hmatch⟩
        · exact Or.inl ⟨found, List.mem_cons_of_mem _ hfound, rest, hcs,
            .either_second (.literal_none hfront) hmatch⟩
        · exact Or.inr ⟨List.forall_mem_cons.2 ⟨hfront, hnone⟩,
            .either_second (.literal_none hfront) hmatch⟩

end Choices

section Series

variable {third part next : Expression ρ} {parts parts' : List (Expression ρ)}

theorem Matches.both_congr
    (h : rules.Matches whole mode (.both first second) cs outcome)
    (hsecond : ∀ cs outcome, rules.Matches whole mode second cs outcome →
      rules.Matches whole mode third cs outcome) :
    rules.Matches whole mode (.both first third) cs outcome := by
  cases h with
  | both hleft hright => exact .both hleft (hsecond _ _ hright)
  | both_first_none hleft => exact .both_first_none hleft
  | both_second_none hleft hright => exact .both_second_none hleft (hsecond _ _ hright)

theorem Matches.both_assoc
    (h : rules.Matches whole mode (.both (.both first second) third) cs outcome) :
    rules.Matches whole mode (.both first (.both second third)) cs outcome := by
  cases h with
  | both hleft hright =>
      cases hleft with
      | both hfirst hsecond =>
          rw [List.append_assoc]
          exact .both hfirst (.both hsecond hright)
  | both_first_none hleft =>
      cases hleft with
      | both_first_none hfirst => exact .both_first_none hfirst
      | both_second_none hfirst hsecond =>
          exact .both_second_none hfirst (.both_first_none hsecond)
  | both_second_none hleft hright =>
      cases hleft with
      | both hfirst hsecond => exact .both_second_none hfirst (.both_second_none hsecond hright)

/-- The parts of two series in turn are one series. -/
theorem Matches.series_append
    (hparts : parts ≠ [])
    (hparts' : parts' ≠ [])
    (h : rules.Matches whole mode (.both (series parts) (.both .layout (series parts')))
      cs outcome) :
    rules.Matches whole mode (series (parts ++ parts')) cs outcome := by
  induction parts generalizing cs outcome with
  | nil => exact absurd rfl hparts
  | cons part parts ih =>
      cases parts with
      | nil =>
          cases parts' with
          | nil => exact absurd rfl hparts'
          | cons part' parts' => exact h
      | cons next parts =>
          refine h.both_assoc.both_congr fun cs outcome hinner => ?_
          exact hinner.both_assoc.both_congr fun cs outcome => ih nofun

/-- In an atomic rule the parts of a series follow each other directly. -/
theorem Matches.series_atomic
    (h : rules.Matches whole .atomic (.both part (series (next :: parts))) cs outcome) :
    rules.Matches whole .atomic (series (part :: next :: parts)) cs outcome :=
  h.both_congr fun _ _ => both_layout_atomic

end Series

end Rules

end Parsing

end Expressions

end Datalog
