/-!
# Arguments of the command line

**Options.** `--no-optimize`, `--print-program` and `--repl` are switches, `--config` takes a value
after it or after an equals sign, and one further argument names the program file.  `--` ends the
options.  `-V`, `--version`, `-h` and `--help` end the reading at once, and so does an unknown
option or a second file.

**Rules.** Options are recognised by their whole name; any number of dashes from two on may stand
before it, and a value given to a switch does not count.  An option cannot be repeated.  The value
after `--config` cannot start with a dash, unless it is a dash alone.  A `--config` that has no
value is an error, but one that shows only when all arguments are read.
-/

namespace Datalog

section Arguments

/-- What the arguments ask for. -/
structure Options where
  noOptimize : Bool
  printProgram : Bool
  repl : Bool
  config : Option String
  file : Option String
deriving DecidableEq, Repr

/-- Why the arguments ask for no run. -/
inductive EarlyExit where
  | version
  | help
  | misuse
deriving DecidableEq, Repr

/-- The names of the options that arguments can hold. -/
inductive OptionName where
  | noOptimize
  | printProgram
  | repl
  | config
deriving DecidableEq, Repr

/-- What the arguments read so far say. -/
structure Arguments where
  /-- The options in the order of the arguments, each time they occur. -/
  seen : List OptionName
  config : Option String
  file : Option String
  /-- Whether the next argument can be the value of `--config`. -/
  awaiting : Bool
deriving DecidableEq, Repr

namespace Arguments

/-- Nothing read yet. -/
def none : Arguments :=
  ⟨[], .none, .none, false⟩

/-- Records an option without a value. -/
def withOption (arguments : Arguments) (name : OptionName) : Arguments :=
  { arguments with seen := arguments.seen ++ [name], awaiting := name == .config }

/-- Records a value of `--config`. -/
def withConfig (arguments : Arguments) (value : String) : Arguments :=
  { arguments with config := some value, awaiting := false }

/-- Records an argument that is neither an option nor the value of one. -/
def withFile (arguments : Arguments) (name : String) : Except EarlyExit Arguments :=
  match arguments.file with
  | .none => .ok { arguments with file := some name, awaiting := false }
  | some _ => .error .misuse

/-- The characters without the dashes at the start. -/
def withoutDashes (cs : List Char) : List Char :=
  cs.dropWhile (· == '-')

/-- Records an option with a long name, given without its dashes. -/
def withLong (arguments : Arguments) (cs : List Char) : Except EarlyExit Arguments :=
  let value := cs.dropWhile (· != '=')
  match String.ofList (cs.takeWhile (· != '=')) with
  | "no-optimize" => .ok (arguments.withOption .noOptimize)
  | "print-program" => .ok (arguments.withOption .printProgram)
  | "repl" => .ok (arguments.withOption .repl)
  | "config" =>
      let recorded := arguments.withOption .config
      .ok (if value.isEmpty then
        recorded
      else
        recorded.withConfig (String.ofList (value.dropWhile (· == '='))))
  | "version" => .error .version
  | "help" => .error .help
  | _ => .error .misuse

/-- Why an argument of short options ends the reading. -/
def shortExit : List Char → EarlyExit
  | 'V' :: _ => .version
  | 'h' :: _ => .help
  | _ => .misuse

/-- Records an argument before `--`. -/
def withArgument (arguments : Arguments) (argument : String) : Except EarlyExit Arguments :=
  match argument.toList with
  | '-' :: '-' :: cs => arguments.withLong (withoutDashes cs)
  | '-' :: c :: cs => .error (shortExit (c :: cs))
  | _ =>
      if arguments.awaiting then
        .ok (arguments.withConfig argument)
      else
        arguments.withFile argument

/-- Reads all arguments; after `--`, none of them is an option. -/
def read (arguments : Arguments) (ended : Bool) : List String → Except EarlyExit Arguments
  | [] => .ok arguments
  | argument :: rest =>
      if ended then
        match arguments.withFile argument with
        | .ok next => read next true rest
        | .error exit => .error exit
      else if argument = "--" then
        read arguments true rest
      else
        match arguments.withArgument argument with
        | .ok next => read next false rest
        | .error exit => .error exit

/-- Whether no option is repeated. -/
def isDistinct : List OptionName → Bool
  | [] => true
  | name :: rest => !rest.contains name && isDistinct rest

/-- Whether `--config` has no value. -/
def lacksConfig (arguments : Arguments) : Bool :=
  arguments.seen.contains .config && arguments.config.isNone

/-- What all arguments together ask for. -/
def options (arguments : Arguments) : Except EarlyExit Options :=
  if arguments.lacksConfig || !isDistinct arguments.seen then
    .error .misuse
  else
    .ok
      { noOptimize := arguments.seen.contains .noOptimize
        printProgram := arguments.seen.contains .printProgram
        repl := arguments.seen.contains .repl
        config := arguments.config
        file := arguments.file }

end Arguments

/-- What a list of arguments asks for. -/
def Options.ofArguments (arguments : List String) : Except EarlyExit Options :=
  match Arguments.none.read false arguments with
  | .ok found => found.options
  | .error exit => .error exit

end Arguments

end Datalog
