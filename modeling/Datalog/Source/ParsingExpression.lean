/-!
# Parsing expressions

**Expressions.** A parsing expression stands at a place in a text.  It matches there, takes the
front of what is left of the text and gives a list of pairs, or it does not match.

* The alternatives of a choice are ordered: the first one that matches counts.
* A repetition takes as many items as there are and never gives one back.
* A rule matches as its expression does.  A pair holds the name of a rule, the text it took and the
  pairs inside.  A silent rule makes no pair of its own.

**Layout.** Between the parts of a series and between the items of a repetition, layout is skipped.
In an atomic rule and in all rules called from it no layout is skipped and no pairs are made.

**Results.** `Matches` relates an expression and a text to what becomes of the match: the pairs and
what is left of the text, or nothing.
-/

namespace Datalog

section ParsingExpression

namespace Parsing

/-- A parsing expression over the names of rules.  Neither a pair of parts nor a repetition of this
type skips layout by itself. -/
inductive Expression (ρ : Type) where
  | literal (text : String)
  | character (test : Char → Bool)
  | start
  | finish
  | call (rule : ρ)
  | layout
  | both (first second : Expression ρ)
  | either (first second : Expression ρ)
  | repeated (item : Expression ρ)
  | absent (unwanted : Expression ρ)

namespace Expression

variable {ρ : Type}

/-- The parts in turn, with layout between them. -/
def series : List (Expression ρ) → Expression ρ
  | [] => literal ""
  | [part] => part
  | part :: next :: parts => both part (both layout (series (next :: parts)))

/-- The first of the alternatives that matches. -/
def choice (first : Expression ρ) : List (Expression ρ) → Expression ρ
  | [] => first
  | second :: others => either first (choice second others)

/-- Any number of items with layout between them. -/
def zeroOrMore (item : Expression ρ) : Expression ρ :=
  either (both item (repeated (both layout item))) (literal "")

/-- Any character. -/
def any : Expression ρ :=
  character fun _ => true

end Expression

/-- What a rule does besides matching. -/
inductive Kind where
  | normal
  | silent
  | atomic
deriving DecidableEq, Repr

/-- The text that a rule took, with the pairs inside. -/
inductive Pair (ρ : Type) where
  | node (rule : ρ) (text : String) (inner : List (Pair ρ))

/-- The rules by their names, and what is skipped as layout. -/
structure Rules (ρ : Type) where
  kind : ρ → Kind
  body : ρ → Expression ρ
  layout : Expression ρ

/-- Where an expression stands: whether in an atomic rule or not. -/
inductive Mode where
  | atomic
  | spaced
deriving DecidableEq, Repr

/-- Where the expression of a rule stands that is called at a given place. -/
def Kind.mode (outer : Mode) : Kind → Mode
  | atomic => .atomic
  | normal | silent => outer

/-- The pairs of a rule with those inside. -/
def Kind.pairs {ρ : Type} (mode : Mode) (rule : ρ) (used : List Char) (inner : List (Pair ρ)) :
    Kind → List (Pair ρ)
  | silent => inner
  | normal | atomic =>
      match mode with
      | .atomic => inner
      | .spaced => [.node rule (String.ofList used) inner]

/-- What becomes of a match: the pairs and what is left of the text, or nothing. -/
abbrev Outcome (ρ : Type) : Type :=
  Option (List (Pair ρ) × List Char)

variable {ρ : Type}

/-- At a place in the whole text, where the given characters are left, an expression has the given
outcome. -/
inductive Rules.Matches (rules : Rules ρ) (whole : List Char) :
    Mode → Expression ρ → List Char → Outcome ρ → Prop
  | literal {mode : Mode} (text : String) (rest : List Char) :
      Matches rules whole mode (.literal text) (text.toList ++ rest) (some ([], rest))
  | literal_none {mode : Mode} {text : String} {cs : List Char} :
      ¬ text.toList <+: cs → Matches rules whole mode (.literal text) cs none
  | character {mode : Mode} {test : Char → Bool} {c : Char} {rest : List Char} :
      test c = true → Matches rules whole mode (.character test) (c :: rest) (some ([], rest))
  | character_none {mode : Mode} {test : Char → Bool} {cs : List Char} :
      (∀ c ∈ cs.head?, test c = false) → Matches rules whole mode (.character test) cs none
  | start {mode : Mode} : Matches rules whole mode .start whole (some ([], whole))
  | start_none {mode : Mode} {cs : List Char} :
      cs ≠ whole → Matches rules whole mode .start cs none
  | finish {mode : Mode} : Matches rules whole mode .finish [] (some ([], []))
  | finish_none {mode : Mode} {cs : List Char} :
      cs ≠ [] → Matches rules whole mode .finish cs none
  | call {mode : Mode} {rule : ρ} {used rest : List Char} {inner : List (Pair ρ)} :
      Matches rules whole ((rules.kind rule).mode mode) (rules.body rule) (used ++ rest)
        (some (inner, rest)) →
      Matches rules whole mode (.call rule) (used ++ rest)
        (some ((rules.kind rule).pairs mode rule used inner, rest))
  | call_none {mode : Mode} {rule : ρ} {cs : List Char} :
      Matches rules whole ((rules.kind rule).mode mode) (rules.body rule) cs none →
      Matches rules whole mode (.call rule) cs none
  | layout_atomic {cs : List Char} : Matches rules whole .atomic .layout cs (some ([], cs))
  | layout_spaced {cs : List Char} {outcome : Outcome ρ} :
      Matches rules whole .atomic rules.layout cs outcome →
      Matches rules whole .spaced .layout cs outcome
  | both {mode : Mode} {first second : Expression ρ} {cs middle : List Char}
      {pairs : List (Pair ρ)} {others : List (Pair ρ)} {rest : List Char} :
      Matches rules whole mode first cs (some (pairs, middle)) →
      Matches rules whole mode second middle (some (others, rest)) →
      Matches rules whole mode (.both first second) cs (some (pairs ++ others, rest))
  | both_first_none {mode : Mode} {first second : Expression ρ} {cs : List Char} :
      Matches rules whole mode first cs none →
      Matches rules whole mode (.both first second) cs none
  | both_second_none {mode : Mode} {first second : Expression ρ} {cs middle : List Char}
      {pairs : List (Pair ρ)} :
      Matches rules whole mode first cs (some (pairs, middle)) →
      Matches rules whole mode second middle none →
      Matches rules whole mode (.both first second) cs none
  | either_first {mode : Mode} {first second : Expression ρ} {cs rest : List Char}
      {pairs : List (Pair ρ)} :
      Matches rules whole mode first cs (some (pairs, rest)) →
      Matches rules whole mode (.either first second) cs (some (pairs, rest))
  | either_second {mode : Mode} {first second : Expression ρ} {cs : List Char}
      {outcome : Outcome ρ} :
      Matches rules whole mode first cs none →
      Matches rules whole mode second cs outcome →
      Matches rules whole mode (.either first second) cs outcome
  | repeated_stop {mode : Mode} {item : Expression ρ} {cs : List Char} :
      Matches rules whole mode item cs none →
      Matches rules whole mode (.repeated item) cs (some ([], cs))
  | repeated_more {mode : Mode} {item : Expression ρ} {cs middle rest : List Char}
      {pairs others : List (Pair ρ)} :
      Matches rules whole mode item cs (some (pairs, middle)) →
      Matches rules whole mode (.repeated item) middle (some (others, rest)) →
      Matches rules whole mode (.repeated item) cs (some (pairs ++ others, rest))
  | absent {mode : Mode} {unwanted : Expression ρ} {cs : List Char} :
      Matches rules whole mode unwanted cs none →
      Matches rules whole mode (.absent unwanted) cs (some ([], cs))
  | absent_none {mode : Mode} {unwanted : Expression ρ} {cs rest : List Char}
      {pairs : List (Pair ρ)} :
      Matches rules whole mode unwanted cs (some (pairs, rest)) →
      Matches rules whole mode (.absent unwanted) cs none

/-- A whole text is read by a rule: the rule matches at its start and what it matched is converted,
or it does not match. -/
def Rules.Reads {α : Type} (rules : Rules ρ) (rule : ρ) (convert : Pair ρ → Option α)
    (text : String) : Option α → Prop
  | some a => ∃ pair rest,
      rules.Matches text.toList .spaced (.call rule) text.toList (some ([pair], rest)) ∧
        convert pair = some a
  | none => rules.Matches text.toList .spaced (.call rule) text.toList none

end Parsing

end ParsingExpression

end Datalog
