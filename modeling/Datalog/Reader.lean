/-!
# Readers

**Type.** A reader takes something off the front of a list of symbols, always at least one
symbol.  The result carries the proof that what is left is shorter, and repetition ends by it.

**Operations.** A single symbol, one reader after another or instead of it, repetition, repetition
between separators, and steps through all symbols.
-/

namespace Datalog

section Reader

/-- What can be left after reading at least one symbol. -/
abbrev Rest {σ : Type} (symbols : List σ) : Type :=
  { rest : List σ // rest.length < symbols.length }

/-- Takes something off the front of a list of symbols. -/
abbrev Reader (σ α : Type) : Type :=
  (symbols : List σ) → Option (α × Rest symbols)

namespace Reader

variable {σ α β : Type}

/-- Reads one given symbol. -/
def symbol [DecidableEq σ] (expected : σ) : Reader σ Unit
  | [] => none
  | found :: rest =>
      if found = expected then
        some ((), ⟨rest, Nat.lt_succ_self _⟩)
      else
        none

/-- Reads one symbol that passes a test. -/
def satisfying (test : σ → Bool) : Reader σ σ
  | [] => none
  | found :: rest =>
      if test found then
        some (found, ⟨rest, Nat.lt_succ_self _⟩)
      else
        none

/-- Changes what is read. -/
def map (f : α → β) (p : Reader σ α) : Reader σ β := fun symbols =>
  match p symbols with
  | none => none
  | some (a, rest) => some (f a, rest)

/-- Changes what is read, or refuses it. -/
def filterMap (f : α → Option β) (p : Reader σ α) : Reader σ β := fun symbols =>
  match p symbols with
  | none => none
  | some (a, rest) => (f a).map fun b => (b, rest)

/-- Reads two things in turn. -/
def andThen (p : Reader σ α) (q : Reader σ β) : Reader σ (α × β) := fun symbols =>
  match p symbols with
  | none => none
  | some (a, ⟨rest, h⟩) =>
      match q rest with
      | none => none
      | some (b, ⟨rest', h'⟩) => some ((a, b), ⟨rest', Nat.lt_trans h' h⟩)

/-- Reads two things in turn and keeps the first. -/
def before (p : Reader σ α) (q : Reader σ β) : Reader σ α :=
  map Prod.fst (andThen p q)

/-- Reads two things in turn and keeps the second. -/
def after (p : Reader σ α) (q : Reader σ β) : Reader σ β :=
  map Prod.snd (andThen p q)

/-- Reads as the first of two readers that reads anything. -/
def orElse (p q : Reader σ α) : Reader σ α := fun symbols =>
  match p symbols with
  | none => q symbols
  | some found => some found

/-- Reads one thing and then perhaps another. -/
def thenOptional (p : Reader σ α) (q : Reader σ β) : Reader σ (α × Option β) := fun symbols =>
  match p symbols with
  | none => none
  | some (a, ⟨rest, h⟩) =>
      match q rest with
      | none => some ((a, none), ⟨rest, h⟩)
      | some (b, ⟨rest', h'⟩) => some ((a, some b), ⟨rest', Nat.lt_trans h' h⟩)

/-- Reads as many as there are, possibly none. -/
def many (p : Reader σ α) (symbols : List σ) :
    List α × { rest : List σ // rest.length ≤ symbols.length } :=
  match p symbols with
  | none => ([], ⟨symbols, Nat.le_refl _⟩)
  | some (a, ⟨rest, h⟩) =>
      match many p rest with
      | (items, ⟨rest', h'⟩) => (a :: items, ⟨rest', Nat.le_trans h' (Nat.le_of_lt h)⟩)
termination_by symbols.length

/-- Reads a first thing and then as many of another as there are, possibly none. -/
def thenMany (p : Reader σ α) (q : Reader σ β) : Reader σ (α × List β) := fun symbols =>
  match p symbols with
  | none => none
  | some (a, ⟨rest, h⟩) =>
      match many q rest with
      | (items, ⟨rest', h'⟩) => some ((a, items), ⟨rest', Nat.lt_of_le_of_lt h' h⟩)

/-- Reads all symbols in steps, each from the state that the one before leaves. -/
def foldAll (step : α → Reader σ α) (state : α) (symbols : List σ) : Option α :=
  if symbols.isEmpty then
    some state
  else
    match step state symbols with
    | none => none
    | some (next, ⟨rest, _⟩) => foldAll step next rest
termination_by symbols.length

/-- Reads one or more things with a separator between them. -/
def separated (separator : Reader σ β) (p : Reader σ α) : Reader σ (List α) :=
  map (fun (first, rest) => first :: rest) (thenMany p (after separator p))

end Reader

end Reader

end Datalog
