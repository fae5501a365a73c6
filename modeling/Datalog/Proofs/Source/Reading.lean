import Datalog.Reader

/-!
# What readers take

**Taking.** `Reader.Takes` says what a reader takes off the front of the symbols and what it leaves.
Each way to combine readers has one lemma about what the combination takes.

**Phrases.** `Reader.Reads` says that a reader takes a phrase wherever one stands in front, and
nothing else: its phrases end by themselves.

**Results.** Repetition is greedy: a reader of phrases takes a sequence of them, or a list with
separators, exactly if no further phrase follows.
-/

namespace Datalog

section Reading

namespace Reader

variable {σ α β : Type} {p : Reader σ α} {q : Reader σ β}
variable {symbols rest : List σ} {a : α} {b : β} {items : List α}

/-- The reader takes something off the front of the symbols and leaves a rest. -/
def Takes (p : Reader σ α) (symbols : List σ) (a : α) (rest : List σ) : Prop :=
  ∃ h, p symbols = some (a, ⟨rest, h⟩)

/-- The reader takes nothing off the front of the symbols. -/
def Refuses (p : Reader σ α) (symbols : List σ) : Prop :=
  p symbols = none

/-- Symbols that fall into phrases, each for one of the items. -/
inductive Sequence (P : List σ → α → Prop) : List σ → List α → Prop
  | nil : Sequence P [] []
  | cons {phrase others : List σ} {item : α} {items : List α} :
      P phrase item → Sequence P others items → Sequence P (phrase ++ others) (item :: items)

/-- Symbols that fall into one or more phrases with a separator between them. -/
inductive Listed (separator : σ) (P : List σ → α → Prop) : List σ → List α → Prop
  | one {phrase : List σ} {item : α} : P phrase item → Listed separator P phrase [item]
  | more {phrase others : List σ} {item : α} {items : List α} :
      P phrase item → Listed separator P others items →
      Listed separator P (phrase ++ separator :: others) (item :: items)

/-- The reader takes a phrase wherever one stands in front, and nothing else. -/
def Reads (p : Reader σ α) (P : List σ → α → Prop) : Prop :=
  ∀ symbols a rest, p.Takes symbols a rest ↔ ∃ used, symbols = used ++ rest ∧ P used a

section Taking

theorem refuses_iff :
    p.Refuses symbols ↔ ∀ a rest, ¬ p.Takes symbols a rest := by
  unfold Refuses
  constructor
  · rintro hnone a rest ⟨_, heq⟩
    rw [hnone] at heq
    cases heq
  · intro hnone
    cases heq : p symbols with
    | none => rfl
    | some found => exact absurd ⟨found.2.2, heq⟩ (hnone found.1 found.2.1)

theorem takes_or_refuses (p : Reader σ α) (symbols : List σ) :
    (∃ a rest, p.Takes symbols a rest) ∨ p.Refuses symbols := by
  unfold Takes Refuses
  cases p symbols with
  | none => exact Or.inr rfl
  | some found => exact Or.inl ⟨found.1, found.2.1, found.2.2, rfl⟩

theorem refuses_nil : p.Refuses [] := by
  rw [refuses_iff]
  rintro a rest ⟨hlt, _⟩
  exact absurd hlt (Nat.not_lt_zero _)

theorem takes_symbol
    [DecidableEq σ] {expected : σ} {u : Unit} :
    (symbol expected).Takes symbols u rest ↔ symbols = expected :: rest := by
  constructor
  · rintro ⟨_, heq⟩
    unfold symbol at heq
    split at heq
    · cases heq
    · split at heq
      · rename_i hfound
        cases heq
        rw [hfound]
      · cases heq
  · rintro rfl
    exact ⟨Nat.lt_succ_self _, by rw [symbol, if_pos rfl]⟩

theorem takes_map {f : α → β} :
    (map f p).Takes symbols b rest ↔ ∃ a, p.Takes symbols a rest ∧ f a = b := by
  constructor
  · rintro ⟨h, heq⟩
    unfold Reader.map at heq
    split at heq
    · cases heq
    · rename_i hread
      cases heq
      exact ⟨_, ⟨h, hread⟩, rfl⟩
  · rintro ⟨a, ⟨h, hread⟩, rfl⟩
    exact ⟨h, by rw [Reader.map, hread]⟩

theorem refuses_of_map
    {f : α → β}
    (h : (map f p).Refuses symbols) :
    p.Refuses symbols :=
  refuses_iff.2 fun a rest hp => refuses_iff.1 h (f a) rest (takes_map.2 ⟨a, hp, rfl⟩)

theorem takes_andThen :
    (andThen p q).Takes symbols (a, b) rest ↔
      ∃ middle, p.Takes symbols a middle ∧ q.Takes middle b rest := by
  constructor
  · rintro ⟨h, heq⟩
    unfold Reader.andThen at heq
    split at heq
    · cases heq
    · rename_i hread
      split at heq
      · cases heq
      · rename_i hread'
        cases heq
        exact ⟨_, ⟨_, hread⟩, ⟨_, hread'⟩⟩
  · rintro ⟨middle, ⟨h, hread⟩, ⟨h', hread'⟩⟩
    exact ⟨Nat.lt_trans h' h, by simp only [Reader.andThen, hread, hread']⟩

theorem refuses_of_andThen
    (h : (andThen p q).Refuses symbols) :
    p.Refuses symbols ∨ ∃ a middle, p.Takes symbols a middle ∧ q.Refuses middle := by
  rcases takes_or_refuses p symbols with ⟨a, middle, hp⟩ | hp
  · refine Or.inr ⟨a, middle, hp, refuses_iff.2 fun b rest hq => ?_⟩
    exact refuses_iff.1 h (a, b) rest (takes_andThen.2 ⟨middle, hp, hq⟩)
  · exact Or.inl hp

theorem takes_before :
    (before p q).Takes symbols a rest ↔
      ∃ middle b, p.Takes symbols a middle ∧ q.Takes middle b rest := by
  unfold before
  rw [takes_map]
  constructor
  · rintro ⟨⟨_, b⟩, htakes, rfl⟩
    obtain ⟨middle, hp, hq⟩ := takes_andThen.1 htakes
    exact ⟨middle, b, hp, hq⟩
  · rintro ⟨middle, b, hp, hq⟩
    exact ⟨(a, b), takes_andThen.2 ⟨middle, hp, hq⟩, rfl⟩

theorem takes_after :
    (after p q).Takes symbols b rest ↔
      ∃ middle a, p.Takes symbols a middle ∧ q.Takes middle b rest := by
  unfold after
  rw [takes_map]
  constructor
  · rintro ⟨⟨a, _⟩, htakes, rfl⟩
    obtain ⟨middle, hp, hq⟩ := takes_andThen.1 htakes
    exact ⟨middle, a, hp, hq⟩
  · rintro ⟨middle, a, hp, hq⟩
    exact ⟨(a, b), takes_andThen.2 ⟨middle, hp, hq⟩, rfl⟩

theorem takes_thenMany
    {r : Reader σ β} {others : List β} :
    (thenMany p r).Takes symbols (a, others) rest ↔
      ∃ middle, p.Takes symbols a middle ∧ ∃ h, many r middle = (others, ⟨rest, h⟩) := by
  constructor
  · rintro ⟨h, heq⟩
    unfold thenMany at heq
    split at heq
    · cases heq
    · rename_i hread
      split at heq
      rename_i hmany
      cases heq
      exact ⟨_, ⟨_, hread⟩, ⟨_, hmany⟩⟩
  · rintro ⟨middle, ⟨h, hread⟩, ⟨h', hmany⟩⟩
    exact ⟨Nat.lt_of_le_of_lt h' h, by simp only [thenMany, hread, hmany]⟩

theorem refuses_of_thenMany
    {r : Reader σ β}
    (h : (thenMany p r).Refuses symbols) :
    p.Refuses symbols := by
  refine refuses_iff.2 fun a middle hp => ?_
  rcases hmany : many r middle with ⟨others, rest, hle⟩
  exact refuses_iff.1 h (a, others) rest (takes_thenMany.2 ⟨middle, hp, hle, hmany⟩)

theorem takes_orElse
    {r : Reader σ α} :
    (orElse p r).Takes symbols a rest ↔
      p.Takes symbols a rest ∨ p.Refuses symbols ∧ r.Takes symbols a rest := by
  unfold Takes Refuses orElse
  cases p symbols <;> simp

theorem refuses_orElse
    {r : Reader σ α} :
    (orElse p r).Refuses symbols ↔ p.Refuses symbols ∧ r.Refuses symbols := by
  unfold Refuses orElse
  cases p symbols <;> simp

end Taking

section Repeating

variable {P : List σ → α → Prop}

/-- A reader of phrases reads a sequence of them up to where it finds no further one. -/
theorem Reads.many_iff
    (h : p.Reads P) :
    (∃ hle, many p symbols = (items, ⟨rest, hle⟩)) ↔
      p.Refuses rest ∧ ∃ used, symbols = used ++ rest ∧ Sequence P used items := by
  constructor
  · rintro ⟨hle, hmany⟩
    fun_induction Reader.many p symbols generalizing items rest with
    | case1 symbols hnone =>
        cases hmany
        exact ⟨hnone, [], rfl, Sequence.nil⟩
    | case2 symbols a rest₁ hlt hread others rest₂ hle₂ hothers ih =>
        cases hmany
        obtain ⟨phrase, rfl, hphrase⟩ := (h symbols a rest₁).1 ⟨hlt, hread⟩
        obtain ⟨hrefuses, used, rfl, hused⟩ := ih hle₂ hothers
        exact ⟨hrefuses, phrase ++ used, (List.append_assoc _ _ _).symm,
          Sequence.cons hphrase hused⟩
  · rintro ⟨hrefuses, used, rfl, hused⟩
    induction hused with
    | nil =>
        refine ⟨Nat.le_refl _, ?_⟩
        have hnone : p ([] ++ rest) = none := hrefuses
        rw [many, hnone]
        rfl
    | @cons phrase others item items hphrase _ ih =>
        obtain ⟨hle, hmany⟩ := ih
        obtain ⟨hlt, hread⟩ := (h (phrase ++ (others ++ rest)) item (others ++ rest)).2
          ⟨phrase, rfl, hphrase⟩
        rw [List.append_assoc]
        exact ⟨Nat.le_trans hle (Nat.le_of_lt hlt), by rw [many, hread]; simp only [hmany]⟩

end Repeating

section Separating

variable {P : List σ → α → Prop} {separator : σ}

/-- A symbol and a phrase. -/
def Following (separator : σ) (P : List σ → α → Prop) (symbols : List σ) (a : α) : Prop :=
  ∃ phrase, symbols = separator :: phrase ∧ P phrase a

theorem listed_cons_iff :
    Listed separator P symbols (a :: items) ↔
      ∃ phrase others, symbols = phrase ++ others ∧ P phrase a ∧
        Sequence (Following separator P) others items := by
  constructor
  · intro h
    -- The induction is on the list from its last phrase on, so the items are a variable.
    generalize hall : a :: items = all at h
    induction h generalizing a items with
    | @one phrase _ hphrase =>
        cases hall
        exact ⟨phrase, [], (List.append_nil _).symm, hphrase, Sequence.nil⟩
    | @more phrase _ _ all hphrase hothers ih =>
        cases hall
        cases all with
        | nil => cases hothers
        | cons next all =>
            obtain ⟨phrase', others, rfl, hphrase', hsequence⟩ := ih rfl
            exact ⟨phrase, separator :: phrase' ++ others, rfl, hphrase,
              Sequence.cons ⟨phrase', rfl, hphrase'⟩ hsequence⟩
  · rintro ⟨phrase, others, rfl, hphrase, hsequence⟩
    induction hsequence generalizing phrase a with
    | nil =>
        rw [List.append_nil]
        exact Listed.one hphrase
    | cons hnext _ ih =>
        obtain ⟨phrase', rfl, hphrase'⟩ := hnext
        exact Listed.more hphrase (ih phrase' hphrase')

variable [DecidableEq σ]

theorem Reads.following
    (h : p.Reads P) :
    (after (symbol separator) p).Reads (Following separator P) := by
  intro symbols a rest
  rw [takes_after]
  constructor
  · rintro ⟨middle, _, hsymbol, htakes⟩
    obtain ⟨phrase, rfl, hphrase⟩ := (h middle a rest).1 htakes
    exact ⟨separator :: phrase, takes_symbol.1 hsymbol, phrase, rfl, hphrase⟩
  · rintro ⟨_, rfl, phrase, rfl, hphrase⟩
    exact ⟨phrase ++ rest, (), takes_symbol.2 rfl, (h _ a rest).2 ⟨phrase, rfl, hphrase⟩⟩

/-- A reader of phrases between separators reads a list up to where it does not go on. -/
theorem Reads.takes_separated
    (h : p.Reads P) :
    (separated (symbol separator) p).Takes symbols items rest ↔
      (after (symbol separator) p).Refuses rest ∧
        ∃ used, symbols = used ++ rest ∧ Listed separator P used items := by
  unfold separated
  rw [takes_map]
  constructor
  · rintro ⟨⟨first, others⟩, htakes, rfl⟩
    obtain ⟨middle, hfirst, hmany⟩ := takes_thenMany.1 htakes
    obtain ⟨phrase, rfl, hphrase⟩ := (h symbols first middle).1 hfirst
    obtain ⟨hrefuses, used, rfl, hused⟩ := h.following.many_iff.1 hmany
    exact ⟨hrefuses, phrase ++ used, (List.append_assoc _ _ _).symm,
      listed_cons_iff.2 ⟨phrase, used, rfl, hphrase, hused⟩⟩
  · rintro ⟨hrefuses, used, rfl, hused⟩
    cases items with
    | nil => cases hused
    | cons first others =>
        obtain ⟨phrase, used, rfl, hphrase, hused⟩ := listed_cons_iff.1 hused
        refine ⟨(first, others), takes_thenMany.2 ⟨used ++ rest, ?_, ?_⟩, rfl⟩
        · exact (h _ first _).2 ⟨phrase, List.append_assoc _ _ _, hphrase⟩
        · exact h.following.many_iff.2 ⟨hrefuses, used, rfl, hused⟩

theorem refuses_following
    {close : σ}
    (h : close ≠ separator) :
    (after (symbol separator) p).Refuses (close :: rest) := by
  rw [refuses_iff]
  intro a others htakes
  obtain ⟨_, _, hsymbol, _⟩ := takes_after.1 htakes
  exact h (List.cons.inj (takes_symbol.1 hsymbol)).1

/-- A list between two symbols, the second of which is not the separator. -/
theorem Reads.takes_enclosed
    (h : p.Reads P)
    {start close : σ}
    (hclose : close ≠ separator) :
    (before (after (symbol start) (separated (symbol separator) p)) (symbol close)).Takes
        symbols items rest ↔
      ∃ used, symbols = start :: (used ++ close :: rest) ∧ Listed separator P used items := by
  rw [takes_before]
  constructor
  · rintro ⟨middle, _, htakes, hsymbol⟩
    obtain ⟨_, _, hstart, hlist⟩ := takes_after.1 htakes
    obtain ⟨_, used, rfl, hused⟩ := h.takes_separated.1 hlist
    rw [takes_symbol.1 hsymbol] at hstart
    exact ⟨used, takes_symbol.1 hstart, hused⟩
  · rintro ⟨used, rfl, hused⟩
    have hlist : (separated (symbol separator) p).Takes (used ++ close :: rest) items
        (close :: rest) :=
      h.takes_separated.2 ⟨refuses_following hclose, used, rfl, hused⟩
    exact ⟨close :: rest, (), takes_after.2 ⟨_, (), takes_symbol.2 rfl, hlist⟩, takes_symbol.2 rfl⟩

/-- A phrase with a symbol after it. -/
theorem Reads.takes_before_symbol
    (h : p.Reads P)
    {close : σ} :
    (before p (symbol close)).Takes symbols a rest ↔
      ∃ used, symbols = used ++ close :: rest ∧ P used a := by
  rw [takes_before]
  constructor
  · rintro ⟨middle, _, htakes, hsymbol⟩
    obtain ⟨used, rfl, hused⟩ := (h symbols a middle).1 htakes
    rw [takes_symbol.1 hsymbol]
    exact ⟨used, rfl, hused⟩
  · rintro ⟨used, rfl, hused⟩
    exact ⟨close :: rest, (), (h _ a _).2 ⟨used, rfl, hused⟩, takes_symbol.2 rfl⟩

end Separating

end Reader

end Reading

end Datalog
