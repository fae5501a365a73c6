import Datalog.Settings.LogDirective

/-!
# Log filters

**Type.** A filter is a list of directives.

**Text form.** Directives are separated by commas; empty ones do not count.

**Rule.** Of the directives for an event, the one with the longest target counts, then one with a
field, then the one with the last field in order, then the last one.  An event without a directive
is left out.
-/

namespace Datalog

section LogFilter

/-- Which events are logged. -/
abbrev LogFilter : Type :=
  List LogDirective

namespace LogFilter

/-- The pieces of a text between commas; `reversed` is the piece read so far, last to first. -/
def pieces (reversed : List Char) : List Char → List (List Char)
  | [] => [reversed.reverse]
  | ',' :: rest => reversed.reverse :: pieces [] rest
  | c :: rest => pieces (c :: reversed) rest

/-- The filter that a text writes. -/
def ofText (text : String) : Except LogDirectiveFault LogFilter :=
  ((pieces [] text.toList).filter fun piece => !piece.isEmpty).mapM LogDirective.ofText

/-- The filter of a text, or another one if the text is malformed; there is none if the text is cut
to find it. -/
def ofTextOr? (text : String) (other : Option LogFilter) : Option LogFilter :=
  match ofText text with
  | .ok filter => some filter
  | .error .malformed => other
  | .error .cut => none

/-- The first of two texts that writes a filter gives it; else warnings are logged. -/
def ofTexts? (first : Option String) (second : String) : Option LogFilter :=
  let last := ofTextOr? second (some [{ level := some .warn }])
  match first with
  | none => last
  | some text => ofTextOr? text last

/-- The directive that counts for an event with a target and fields. -/
def directiveFor? (filter : LogFilter) (target : String) (fields : List String) :
    Option LogDirective :=
  (filter.filter fun directive => directive.concerns target fields).foldl
    (fun best directive =>
      match best with
      | none => some directive
      | some other => if other.givesWay directive then some directive else some other)
    none

/-- Whether an event is logged. -/
def allows (filter : LogFilter) (target : String) (fields : List String) (severity : Severity) :
    Bool :=
  match filter.directiveFor? target fields with
  | some directive => directive.level.any fun least => severity.rank ≤ least.rank
  | none => false

end LogFilter

end LogFilter

end Datalog
