import Datalog.Decimal.Digits
import Datalog.Event
import Datalog.Text.Alphanumeric
import Datalog.Text.Bytes
import Datalog.Text.Pattern.Validity

/-!
# Directives of log filters

**Type.** A directive sets the level of the events whose target starts with a name and that have a
field, or of all events.

**Text form.** A directive is a level or a target, which lets all its events through, or
`target[span{field=value}]=level`.  Target, brackets and level can be left out, and in the brackets
the span, the value, and the field with its braces.  Levels are `off`, `error`, `warn`, `info`,
`debug` and `trace` in whatever case, or the numbers from 0 to 5 in the same order.  A value is a
number or a pattern.

**Blanks.** The blanks at the ends of a directive are left out to find its parts, but the places of
the parts are then counted in the text with the blanks.  A place inside a character cuts the text.

**Spans.** A run enters no spans, and directives that ask for a span or a value are about these.
-/

namespace Datalog

section LogDirective

/-- A level of a filter: the least severity that it lets through, if it lets any event through. -/
abbrev LogLevel : Type :=
  Option Severity

/-- What a filter says of some events. -/
structure LogDirective where
  /-- How the targets of the events start. -/
  target : Option String := none
  /-- Whether it asks for a span or a value. -/
  isForSpans : Bool := false
  /-- The field that the events have. -/
  field : Option String := none
  level : LogLevel := some .trace
deriving DecidableEq, Repr

/-- Why a text is no directive. -/
inductive LogDirectiveFault where
  | malformed
  | cut
deriving DecidableEq, Repr

namespace LogDirective

section Parts

/-- The number that a text writes, perhaps with a plus, in 64 bits. -/
def number? (cs : List Char) : Option Nat :=
  (Digits.natural? (if cs.head? = some '+' then cs.tail else cs)).filter (· < UInt64.size)

/-- The level that a text writes.  No event here is an error. -/
def level? (cs : List Char) : Option LogLevel :=
  match number? cs with
  | some 0 | some 1 => some none
  | some 2 => some (some .warn)
  | some 3 => some (some .info)
  | some 4 => some (some .debug)
  | some 5 => some (some .trace)
  | some _ => none
  | none =>
      match (String.ofList cs).toLower with
      | "off" | "error" => some none
      | "warn" => some (some .warn)
      | "info" => some (some .info)
      | "debug" => some (some .debug)
      | "trace" => some (some .trace)
      | _ => none

/-- Whether a text without its sign names infinity or the value that is no number. -/
def isNumberName (cs : List Char) : Bool :=
  ["inf", "infinity", "nan"].contains (String.ofList cs).toLower

/-- Whether a text is a number, with a point or not. -/
def isNumber (cs : List Char) : Bool :=
  let (_, unsigned) := Digits.splitSign cs
  let places := unsigned.takeWhile fun c => c.isDigit || c == '.'
  isNumberName unsigned ||
    (places.any Char.isDigit && places.count '.' ≤ 1 &&
      (Digits.exponent? (unsigned.drop places.length)).isSome)

/-- A directive with the field that a text asks for, and its value if there is an equals sign. -/
def withField? (directive : LogDirective) (cs : List Char) : Option LogDirective :=
  let name := cs.takeWhile (· != '=')
  let withName := { directive with field := some (String.ofList name) }
  match cs.drop name.length with
  | [] => if cs.isEmpty then none else some withName
  | _ :: rest =>
      let value := rest.takeWhile (· != '=')
      if isNumber value || isPattern value then
        some { withName with isForSpans := true }
      else
        none

end Parts

section Reading

/-- The part of a directive that is being read, with the place of its start. -/
inductive Part where
  | start
  | name
  | span (start : Nat)
  | field (start : Nat)
  | afterField
  | afterSpan
  | level (start : Nat)
deriving DecidableEq, Repr

/-- A directive up to the part that is being read. -/
abbrev Draft : Type :=
  LogDirective × Part

/-- What is between two places of a text. -/
def slice (text : List Char) (first last : Nat) : Except LogDirectiveFault (List Char) :=
  match Bytes.slice? first last text with
  | none => .error .cut
  | some part => .ok part

/-- The draft after the character of a text at a place. -/
def read (text : List Char) (draft : Draft) (place : Nat) (c : Char) :
    Except LogDirectiveFault Draft :=
  let (directive, part) := draft
  match part, c with
  | .start, '[' => .ok (directive, .span (place + 1))
  | .start, _ =>
      if c == '-' || c == ':' || c == '_' || Alphanumeric.contains c then
        .ok (directive, .name)
      else
        .error .malformed
  | .name, '=' => do
      let target ← slice text 0 place
      return ({ directive with target := some (String.ofList target) }, .level (place + 1))
  | .name, '[' => do
      let target ← slice text 0 place
      return ({ directive with target := some (String.ofList target) }, .span (place + 1))
  | .span start, ']' => do
      let _ ← slice text start place
      return ({ directive with isForSpans := true }, .afterSpan)
  | .span start, '\x7b' => do
      let name ← slice text start place
      return ({ directive with isForSpans := !name.isEmpty }, .field (place + 1))
  | .field start, '\x7d' => do
      match directive.withField? (← slice text start place) with
      | none => .error .malformed
      | some directive => return (directive, .afterField)
  | .afterField, ']' => .ok (directive, .afterSpan)
  | .afterSpan, '=' => .ok (directive, .level (place + 1))
  | .afterField, _ | .afterSpan, _ => .error .malformed
  | _, _ => .ok draft

/-- The draft after all characters of a text from a place. -/
def readAll (text : List Char) (draft : Draft) (place : Nat) :
    List Char → Except LogDirectiveFault Draft
  | [] => .ok draft
  | c :: rest => do
      let next ← read text draft place c
      readAll text next (place + c.utf8Size) rest

/-- The directive of a draft of a whole text. -/
def finish (text : List Char) (draft : Draft) : Except LogDirectiveFault LogDirective :=
  let (directive, part) := draft
  match part with
  | .name =>
      match level? text with
      | some level => .ok { directive with level := level }
      | none => .ok { directive with target := some (String.ofList text) }
  | .level start => do
      let name ← slice text start (Bytes.size text)
      if name.isEmpty then
        return directive
      else
        match level? name with
        | some level => return { directive with level := level }
        | none => .error .malformed
  | .afterSpan => .ok directive
  | _ => .error .malformed

/-- The directive that a text writes. -/
def ofText (text : List Char) : Except LogDirectiveFault LogDirective := do
  finish text (← readAll text ({}, .start) 0 (Blank.trimList text))

end Reading

section Choice

/-- Whether the directive is about an event with a target and fields. -/
def concerns (directive : LogDirective) (target : String) (fields : List String) : Bool :=
  !directive.isForSpans &&
    directive.target.all (fun start => start.toList.isPrefixOf target.toList) &&
    directive.field.all fields.contains

/-- Whether one of two fields comes first, where none comes before all. -/
def fieldPrecedes : Option String → Option String → Bool
  | _, none => false
  | none, some _ => true
  | some a, some b => decide (a < b)

/-- The size of a target, where none is smaller than all. -/
def targetSize (directive : LogDirective) : Nat :=
  match directive.target with
  | none => 0
  | some target => target.utf8ByteSize + 1

/-- Whether a directive for the same event gives way to a later one. -/
def givesWay (directive later : LogDirective) : Bool :=
  directive.targetSize < later.targetSize ||
    (directive.targetSize == later.targetSize && !fieldPrecedes later.field directive.field)

end Choice

end LogDirective

end LogDirective

end Datalog
