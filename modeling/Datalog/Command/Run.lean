import Datalog.Command.Arguments
import Datalog.Log
import Datalog.Settings.Layers
import Datalog.Source.Grammar
import Datalog.Text.Lines

/-!
# Running the command

**Input.** Arguments, environment variables, and ways to read settings files, program files and
standard input.

**Order.** The arguments come first, then the settings, the log filter, the name of the program file
(the first line of the input if no argument gives it), the file, and the program.  The first of them
that fails ends the run with one error and no output.  The report follows, and with `--repl` an
answer to each further line of the input.

**Cuts.** A run in which a text is cut inside a character ends there with a status of its own.

The run is written over any monad that can read files and input, so that it can be reasoned about
with both as plain data.  Input is read only where it is needed: for the name of the program file,
the blocks that the first line reaches into, and for answers all that is left once the file is read.
-/

namespace Datalog

section Run

/-- What a run leaves behind. -/
structure Outcome where
  status : Nat
  output : String
  /-- The first line on standard error that starts like an error. -/
  errorLine : Option String
deriving DecidableEq, Repr

/-- Why a run fails after its arguments are read. -/
inductive Failure where
  | cut
  | settings (file : Option String)
  | fileName
  | file (name : String)
  | program (error : ParseError)
deriving DecidableEq, Repr

/-- The failure as a sentence; a cut has none. -/
def Failure.message? : Failure → Option String
  | cut => none
  | settings none => some "Failed to load configuration"
  | settings (some path) => some ("Failed to load configuration from " ++ path)
  | fileName => some "Failed to read a file name"
  | file name => some ("Failed to read " ++ name)
  | program error => some error.message

namespace Outcome

/-- The exit status of a run in which a text is cut. -/
def cutStatus : Nat :=
  101

/-- How the line of an error starts. -/
def errorStart : List Char :=
  "Error: ".toList

/-- The first line of texts that starts like an error. -/
def errorLine? (texts : List String) : Option String :=
  ((texts.flatMap fun text => Lines.ofText [] text.toList).find? fun line =>
    errorStart.isPrefixOf line).map String.ofList

/-- The exit status of a run that fails. -/
def failureStatus : Failure → Nat
  | .cut => cutStatus
  | _ => 1

/-- A run that fails. -/
def ofFailure (failure : Failure) : Outcome :=
  ⟨failureStatus failure, "", errorLine? (failure.message?.map ("Error: " ++ ·)).toList⟩

/-- How the command is called. -/
def usage : String :=
  "USAGE: dlrel [--config <config>] [--no-optimize] [--print-program] [--repl] [--] [file]\n"

/-- A run that the arguments end. -/
def ofEarlyExit : EarlyExit → Outcome
  | .version => ⟨0, "dlrel 0.1.0\n", none⟩
  | .help => ⟨0, usage, none⟩
  | .misuse => ⟨1, "", none⟩

end Outcome

namespace Run

/-- The settings files, the last one on top. -/
def settingsFiles (options : Options) : List String :=
  match options.config with
  | some file => [file]
  | none => Settings.fileNames

/-- The settings, from the files' contents, the environment and the options. -/
def settings
    (options : Options) (contents : List (Option ByteArray))
    (environment : List (String × String)) :
    Except Failure Settings :=
  match Settings.ofSources contents environment with
  | .error .cut => .error .cut
  | .error _ => .error (.settings options.config)
  | .ok settings =>
      .ok
        { settings with
          evaluation :=
            { settings.evaluation with
              optimize := settings.evaluation.optimize && !options.noOptimize } }

/-- The settings and the filter of the log. -/
def setup
    (options : Options) (contents : List (Option ByteArray))
    (environment : List (String × String)) :
    Except Failure (Settings × LogFilter) :=
  match settings options contents environment with
  | .error failure => .error failure
  | .ok settings =>
      match LogFilter.ofTexts? (environment.lookup "RUST_LOG") settings.logging.level with
      | none => .error .cut
      | some filter => .ok (settings, filter)

/-- The name of the program file on the first line of the input. -/
def programFile (input : ByteArray) : Except Failure String :=
  match (Lines.ofBytes input).head?.map Lines.text with
  | none | some .undecodable => .error .fileName
  | some .cut => .error .cut
  | some (.text text) => .ok (Blank.trim text)

/-- The program in a file. -/
def readProgram (name : String) (content : Option ByteArray) : Except Failure Program :=
  match content.bind String.fromUTF8? with
  | none => .error (.file name)
  | some text =>
      match Program.parse text with
      | .error error => .error (.program error)
      | .ok program => .ok program

/-- The answer to one line of the input, without the blanks at its ends. -/
def reply (db : Database) (line : String) : String :=
  match Predicate.parseQuery (Blank.trim line) with
  | .error error => "Error: " ++ error.message ++ "\n"
  | .ok query => (db.answer query).text ++ "\n"

/-- The answers to lines of the input, and whether they end at a line that is cut.  Blank lines have
none; a line that is not UTF-8 is the last. -/
def replies (db : Database) : List (List UInt8) → String × Bool
  | [] => ("", false)
  | line :: rest =>
      match Lines.text line with
      | .undecodable => ("Error: stream did not contain valid UTF-8\n", false)
      | .cut => ("", true)
      | .text text =>
          let (answers, isCut) := replies db rest
          if (Blank.trim text).isEmpty then
            (answers, isCut)
          else
            (reply db text ++ answers, isCut)

/-- What is printed for a program before the answers. -/
def output (options : Options) (program : Program) (evaluation : Evaluation) : String :=
  (if options.printProgram then program.text ++ "\n\n" else "") ++
    evaluation.report.text ++ "\n"

/-- The first line of the log that starts like an error.  Records in JSON have none. -/
def logErrorLine?
    (format : LogFormat) (filter : LogFilter) (program : Program) (evaluation : Evaluation) :
    Option String :=
  match format with
  | .json => none
  | .text => Outcome.errorLine? ((LogRecord.ofRun filter program evaluation).map LogRecord.text)

/-- A run whose program is read, with the lines to answer. -/
def outcome
    (options : Options) (settings : Settings) (filter : LogFilter) (program : Program)
    (lines : List (List UInt8)) :
    Outcome :=
  let evaluation := Evaluation.ofProgram settings.evaluation program
  let (answers, isCut) := replies evaluation.database lines
  ⟨if isCut then Outcome.cutStatus else 0, output options program evaluation ++ answers,
    logErrorLine? settings.logging.format filter program evaluation⟩

end Run

/-- Runs the command.  Settings files are read apart from other files: a device is none. -/
def run {m : Type → Type} [Monad m]
    (readSettings readFile : String → m (Option ByteArray)) (readBlocks readRest : m ByteArray)
    (arguments : List String) (environment : List (String × String)) :
    m Outcome := do
  match Options.ofArguments arguments with
  | .error exit => return .ofEarlyExit exit
  | .ok options =>
      let contents ← (Run.settingsFiles options).mapM readSettings
      match Run.setup options contents environment with
      | .error failure => return .ofFailure failure
      | .ok (settings, filter) =>
          let blocks ← if options.file.isSome then pure ByteArray.empty else readBlocks
          match options.file.elim (Run.programFile blocks) .ok with
          | .error failure => return .ofFailure failure
          | .ok name =>
              match Run.readProgram name (← readFile name) with
              | .error failure => return .ofFailure failure
              | .ok program =>
                  let rest ← if options.repl then readRest else pure ByteArray.empty
                  let lines := Lines.ofBytes (blocks ++ rest)
                  let asked := if options.file.isSome then lines else lines.tail
                  return Run.outcome options settings filter program
                    (if options.repl then asked else [])

end Run

end Datalog
