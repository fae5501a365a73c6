import Datalog.Text.Alphanumeric
import Datalog.Text.Pattern.Atom

/-!
# Valid patterns

**Rule.** A pattern is a choice between sequences of items: atoms, classes and groups, each perhaps
repeated.  A group captures what it matches, with or without a name that no other group has, or it
changes flags for its inside.  Flags can also change up to the end of the group that they stand in.
A class has members, ranges of characters and classes as its parts, and operators between them.

**Depth.** An item that has parts is one deeper than the deepest of them, and so are several items
in a row, several members together, and the sides of a choice or of an operator.  A valid pattern is
at most 250 deep.

**State.** The pattern is read from left to right, with the groups and classes that are open.
-/

namespace Datalog

section PatternValidity

/-- Items or members in a row, up to now. -/
structure PatternRow where
  count : Nat := 0
  deepest : Nat := 0
deriving DecidableEq, Repr

namespace PatternRow

/-- The depth of the row as a whole. -/
def depth (row : PatternRow) : Nat :=
  if row.count ≤ 1 then row.deepest else row.deepest + 1

/-- The row with one more item of a depth. -/
def push (row : PatternRow) (depth : Nat) : PatternRow :=
  ⟨row.count + 1, max row.deepest depth⟩

/-- The depth of a row after the side of a choice or of an operator before it. -/
def depthAfter (row : PatternRow) : Option Nat → Nat
  | none => row.depth
  | some before => max before row.depth + 1

end PatternRow

/-- A sequence of items within a choice, up to now. -/
structure PatternSequence where
  /-- The flags for what follows. -/
  flags : PatternFlags := {}
  /-- The greatest depth of the sequences before it in the choice. -/
  before : Option Nat := none
  items : PatternRow := {}
  /-- The depth of the last item, if that can be repeated. -/
  last : Option Nat := none
deriving DecidableEq, Repr

namespace PatternSequence

/-- The sequence with one more item that can be repeated. -/
def push (sequence : PatternSequence) (depth : Nat) : PatternSequence :=
  { sequence with items := sequence.items.push depth, last := some depth }

/-- The depth of the choice that ends with the sequence. -/
def choiceDepth (sequence : PatternSequence) : Nat :=
  sequence.items.depthAfter sequence.before

/-- The next sequence of the choice. -/
def alternative (sequence : PatternSequence) : PatternSequence :=
  let depth := sequence.items.depth
  { flags := sequence.flags, before := some (max depth (sequence.before.getD depth)) }

/-- The sequence with its last item repeated. -/
def repeated? (sequence : PatternSequence) : Option PatternSequence :=
  sequence.last.map fun depth =>
    { sequence with
      items := { sequence.items with deepest := max sequence.items.deepest (depth + 1) }
      last := some (depth + 1) }

/-- The sequence after a change of flags. -/
def withFlags (sequence : PatternSequence) (flags : PatternFlags) : PatternSequence :=
  { sequence with flags := flags, items := sequence.items.push 0, last := none }

end PatternSequence

/-- A class that is open. -/
structure PatternClass where
  members : PatternRow
  /-- The depth of what is left of the last operator. -/
  left : Option Nat := none
deriving DecidableEq, Repr

/-- How a group starts. -/
inductive PatternOpening where
  | capture (name : Option (List Char))
  | change (letters : List Char) (isGroup : Bool)
deriving DecidableEq, Repr

/-- Where the reading of a pattern stands. -/
structure PatternState where
  sequence : PatternSequence := {}
  /-- The sequences outside the open groups, innermost first. -/
  outer : List PatternSequence := []
  /-- The open classes, innermost first. -/
  classes : List PatternClass := []
  names : List (List Char) := []
  isSupported : Bool := true
deriving DecidableEq, Repr

namespace PatternState

section Groups

/-- The name of a group between angle brackets. -/
def groupName : Reader Char (List Char) :=
  Reader.map (fun (first, rest) => first :: rest)
    (Reader.before
      (Reader.after (Reader.symbol '<')
        (Reader.thenMany
          (Reader.satisfying fun c => c == '_' || Alphanumeric.isLetter c)
          (Reader.satisfying fun c =>
            c == '_' || c == '.' || c == '[' || c == ']' || Alphanumeric.contains c)))
      (Reader.symbol '>'))

/-- A name after its sign. -/
def named : Reader Char PatternOpening :=
  Reader.map (fun name => .capture (some name))
    (Reader.after (Reader.symbol '?')
      (Reader.orElse groupName (Reader.after (Reader.symbol 'P') groupName)))

/-- A change of flags after its sign. -/
def change : Reader Char PatternOpening :=
  Reader.map (fun ((_, letters), last) => .change letters (last == ':'))
    (Reader.andThen
      (Reader.thenMany (Reader.symbol '?') (Reader.satisfying fun c => c != ':' && c != ')'))
      (Reader.satisfying fun c => c == ':' || c == ')'))

/-- The start of a group. -/
def opening (flags : PatternFlags) : Reader Char PatternOpening :=
  Reader.map (fun (_, found) => found.getD (.capture none))
    (Reader.thenOptional (PatternAtom.spaced flags (Reader.symbol '('))
      (Reader.orElse named change))

/-- The state inside a group. -/
def inside (state : PatternState) (flags : PatternFlags) : PatternState :=
  { state with sequence := { flags := flags }, outer := state.sequence :: state.outer }

/-- The state after the start of a group or a change of flags. -/
def opened? (state : PatternState) : PatternOpening → Option PatternState
  | .capture none => some (state.inside state.sequence.flags)
  | .capture (some name) =>
      if state.names.contains name then
        none
      else
        some { state.inside state.sequence.flags with names := name :: state.names }
  | .change letters isGroup =>
      match state.sequence.flags.changed? letters with
      | none => none
      | some flags =>
          if isGroup then
            some (state.inside flags)
          else if letters.isEmpty then
            none
          else
            some { state with sequence := state.sequence.withFlags flags }

/-- The state after the end of a group. -/
def closed? (state : PatternState) : Option PatternState :=
  match state.outer with
  | [] => none
  | sequence :: outer =>
      some
        { state with
          sequence := sequence.push (state.sequence.choiceDepth + 1)
          outer := outer }

end Groups

section Classes

/-- The names of classes of ASCII characters. -/
def asciiClasses : List String :=
  ["alnum", "alpha", "ascii", "blank", "cntrl", "digit", "graph", "lower", "print", "punct",
    "space", "upper", "word", "xdigit"]

/-- A class by its name in a class; whether it holds what the name does not. -/
def asciiClass : Reader Char Bool :=
  Reader.filterMap
    (fun ((_, negation), (name, _)) =>
      if asciiClasses.contains (String.ofList name) then some negation.isSome else none)
    (Reader.andThen
      (Reader.thenOptional (Reader.andThen (Reader.symbol '[') (Reader.symbol ':'))
        (Reader.symbol '^'))
      (Reader.andThen
        (Reader.map (fun (first, rest) => first :: rest)
          (Reader.thenMany (Reader.satisfying Char.isLower) (Reader.satisfying Char.isLower)))
        (Reader.andThen (Reader.symbol ':') (Reader.symbol ']'))))

/-- The start of a class: whether it is negated, and how many hyphens or closing brackets stand for
themselves there. -/
def classOpening (flags : PatternFlags) : Reader Char (Bool × Nat) := fun cs =>
  let spacedSymbol (c : Char) := PatternAtom.spaced flags (Reader.symbol c)
  let start := Reader.thenOptional (spacedSymbol '[') (spacedSymbol '^')
  match Reader.thenMany start (spacedSymbol '-') cs with
  | none => none
  | some (((_, negation), hyphens), ⟨rest, h⟩) =>
      match hyphens, spacedSymbol ']' rest with
      | [], some (_, ⟨rest', h'⟩) => some ((negation.isSome, 1), ⟨rest', Nat.lt_trans h' h⟩)
      | _, _ => some ((negation.isSome, hyphens.length), ⟨rest, h⟩)

/-- The state inside a class. -/
def classOpened (state : PatternState) (start : Bool × Nat) : PatternState :=
  let flags := state.sequence.flags
  { state with
    classes := ⟨⟨start.2, 0⟩, none⟩ :: state.classes
    isSupported :=
      state.isSupported && (!start.1 || flags.unicode) && (start.2 == 0 || flags.literals) }

/-- The state after one more member of a depth. -/
def withMember (state : PatternState) (depth : Nat) (isSupported : Bool) : PatternState :=
  match state.classes with
  | [] =>
      { state with
        sequence := state.sequence.push depth
        isSupported := state.isSupported && isSupported }
  | current :: outer =>
      { state with
        classes := { current with members := current.members.push depth } :: outer
        isSupported := state.isSupported && isSupported }

/-- The state after the end of a class. -/
def classClosed (state : PatternState) : PatternState :=
  match state.classes with
  | [] => state
  | current :: outer =>
      { state with classes := outer }.withMember (current.members.depthAfter current.left + 1) true

/-- The state after an operator. -/
def operated (state : PatternState) : PatternState :=
  match state.classes with
  | [] => state
  | current :: outer =>
      { state with classes := ⟨{}, some (current.members.depthAfter current.left)⟩ :: outer }

/-- An operator between classes. -/
def operator : Reader Char Unit :=
  Reader.map (fun _ => ())
    (Reader.orElse (Reader.andThen (Reader.symbol '&') (Reader.symbol '&'))
      (Reader.orElse (Reader.andThen (Reader.symbol '-') (Reader.symbol '-'))
        (Reader.andThen (Reader.symbol '~') (Reader.symbol '~'))))

/-- The character after a hyphen.  In verbose patterns gaps are left out for it, a comment only up
to its first character. -/
def afterHyphen? (flags : PatternFlags) (cs : List Char) : Option Char :=
  if flags.verbose then
    match cs.dropWhile Blank.contains with
    | '#' :: comment => (comment.dropWhile Blank.contains).head?.or cs.head?
    | found => found.head?.or cs.head?
  else
    cs.head?

/-- A hyphen in the middle of a range: no bracket and no other hyphen follows. -/
def rangeHyphen (flags : PatternFlags) : Reader Char Unit := fun cs =>
  if afterHyphen? flags cs.tail = some ']' || afterHyphen? flags cs.tail = some '-' then
    none
  else
    PatternAtom.spaced flags (Reader.symbol '-') cs

/-- Whether a member that is no range is supported, if it can be a member. -/
def single? (flags : PatternFlags) (atom : PatternAtom) : Option Bool :=
  match atom, atom.character? with
  | _, some c => some (PatternAtom.areMembers flags [c])
  | .namedClass _, none => some (atom.isSupported flags)
  | _, none => none

/-- Whether a range is supported, if it is one. -/
def range? (flags : PatternFlags) (first last : PatternAtom) : Option Bool :=
  match first.character?, last.character? with
  | some a, some b => if a ≤ b then some (PatternAtom.areMembers flags [a, b]) else none
  | _, _ => none

/-- A character, a range or a named class in a class; whether it is supported. -/
def member (flags : PatternFlags) : Reader Char Bool := fun cs =>
  match PatternAtom.spaced flags (PatternAtom.memberReader flags ['[', ']']) cs with
  | none => none
  | some (first, ⟨rest, h⟩) =>
      match rangeHyphen flags rest with
      | none => (single? flags first).map fun supported => (supported, ⟨rest, h⟩)
      | some (_, ⟨rest', h'⟩) =>
          match PatternAtom.memberReader flags [] rest' with
          | none => none
          | some (last, ⟨rest'', h''⟩) =>
              (range? flags first last).map fun supported => (supported, ⟨rest'', by omega⟩)

end Classes

section Steps

/-- A step inside a class. -/
def classStep (state : PatternState) : Reader Char PatternState :=
  let flags := state.sequence.flags
  Reader.orElse
    (Reader.map (fun negated => state.withMember 0 (flags.literals && (flags.unicode || !negated)))
      asciiClass)
    (Reader.orElse (Reader.map state.classOpened (classOpening flags))
      (Reader.orElse (Reader.map (fun _ => state.classClosed) (Reader.symbol ']'))
        (Reader.orElse (Reader.map (fun _ => state.operated) operator)
          (Reader.map (state.withMember 0) (member flags)))))

/-- A step outside classes. -/
def itemStep (state : PatternState) : Reader Char PatternState :=
  let flags := state.sequence.flags
  Reader.orElse (Reader.filterMap state.opened? (opening flags))
    (Reader.orElse (Reader.filterMap (fun _ => state.closed?) (Reader.symbol ')'))
      (Reader.orElse
        (Reader.map (fun _ => { state with sequence := state.sequence.alternative })
          (Reader.symbol '|'))
        (Reader.orElse
          (Reader.filterMap
            (fun _ => state.sequence.repeated?.map fun sequence =>
              { state with sequence := sequence })
            (Reader.thenOptional
              (Reader.satisfying fun c => c == '?' || c == '*' || c == '+') (Reader.symbol '?')))
          (Reader.orElse (Reader.map state.classOpened (classOpening flags))
            (Reader.map (fun atom => state.withMember 0 (atom.isSupported flags))
              (PatternAtom.reader flags))))))

/-- A step. -/
def step (state : PatternState) : Reader Char PatternState :=
  let part := if state.classes.isEmpty then state.itemStep else state.classStep
  if state.sequence.flags.verbose then
    Reader.orElse (Reader.map (fun _ => state) PatternAtom.gap) part
  else
    part

/-- Whether a pattern can end in the state. -/
def isFinal (state : PatternState) : Bool :=
  state.outer.isEmpty && state.classes.isEmpty && state.isSupported &&
    state.sequence.choiceDepth ≤ 250

end Steps

end PatternState

/-- Whether characters are a valid pattern. -/
def isPattern (cs : List Char) : Bool :=
  (Reader.foldAll PatternState.step {} cs).any PatternState.isFinal

end PatternValidity

end Datalog
