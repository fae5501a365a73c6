import Datalog.Command.Run

/-!
# The program

Standard input, the environment variables and the files are handed to `Datalog.run`; its outcome is
printed.
-/

namespace Datalog

section Main

/-- The blocks of a stream up to one with the end of a line, or all. -/
partial def readBlocks (stream : IO.FS.Stream) (sofar : ByteArray) : IO ByteArray := do
  let block ← stream.read Lines.blockSize.toUSize
  if block.isEmpty || block.data.contains 10 then
    return sofar ++ block
  else
    readBlocks stream (sofar ++ block)

/-- All bytes of a stream. -/
partial def readAll (stream : IO.FS.Stream) (sofar : ByteArray) : IO ByteArray := do
  let block ← stream.read Lines.blockSize.toUSize
  if block.isEmpty then
    return sofar
  else
    readAll stream (sofar ++ block)

/-- The content of a file, if it can be read. -/
def readFile (path : String) : IO (Option ByteArray) := do
  try
    return some (← IO.FS.readBinFile path)
  catch _ =>
    return none

/-- The name and the value in an entry of the environment, with the first equals sign that is not at
the start between them. -/
def environmentEntry? : List Char → Option (String × String)
  | [] => none
  | first :: rest =>
      match rest.dropWhile (· != '=') with
      | [] => none
      | _ :: value =>
          some (String.ofList (first :: rest.takeWhile (· != '=')), String.ofList value)

/-- The variables in a block of entries with zeros between them.  Entries that are not UTF-8 are
left out. -/
def ofEnvironmentBlock (block : ByteArray) : List (String × String) :=
  (block.data.toList.splitOn 0).filterMap fun entry =>
    (String.fromUTF8? ⟨entry.toArray⟩).bind fun text => environmentEntry? text.toList

/-- All variables of the process. -/
def environment : IO (List (String × String)) := do
  let block ← readFile "/proc/self/environ"
  return ofEnvironmentBlock (block.getD ByteArray.empty)

end Main

end Datalog

/-- Runs the command on the process's own arguments, files and streams. -/
def main (arguments : List String) : IO UInt32 := do
  let environment ← Datalog.environment
  let input ← IO.getStdin
  let outcome ←
    Datalog.run Datalog.readFile Datalog.readFile (Datalog.readBlocks input ByteArray.empty)
      (Datalog.readAll input ByteArray.empty) arguments environment
  IO.print outcome.output
  match outcome.errorLine with
  | some line => IO.eprintln line
  | none => pure ()
  return outcome.status.toUInt32
