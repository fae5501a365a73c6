import Datalog.Text.Backspace

/-!
# Lines of a stream of bytes

**Rule.** A line ends with a line feed, which is not part of it, and neither is one carriage return
directly before it.  Bytes after the last line feed are a line too.  The text of a line is what
backspaces leave of it; a line that is not UTF-8 has none.

**Blocks.** A stream is read in blocks.  Reading up to the end of the first line takes the blocks
that this line reaches into.
-/

namespace Datalog

section Lines

/-- What a line of a stream says. -/
inductive LineText where
  | text (text : String)
  | undecodable
  | cut
deriving DecidableEq, Repr

namespace Lines

/-- A line without the carriage return at its end, given its bytes last to first. -/
def finished : List UInt8 → List UInt8
  | 13 :: rest => rest.reverse
  | bytes => bytes.reverse

/-- The lines; `reversed` is the line read so far, last byte to first. -/
def split (reversed : List UInt8) : List UInt8 → List (List UInt8)
  | [] => if reversed.isEmpty then [] else [reversed.reverse]
  | byte :: rest =>
      if byte = 10 then
        finished reversed :: split [] rest
      else
        split (byte :: reversed) rest

/-- The lines of a stream. -/
def ofBytes (bytes : ByteArray) : List (List UInt8) :=
  split [] bytes.data.toList

/-- The text of a line. -/
def text (bytes : List UInt8) : LineText :=
  match String.fromUTF8? ⟨bytes.toArray⟩ with
  | none => .undecodable
  | some line =>
      match Backspace.erase? line.toList with
      | none => .cut
      | some left => .text (String.ofList left)

/-- The number of bytes of a block. -/
def blockSize : Nat :=
  8192

/-- The blocks that the first line of a stream reaches into, and what follows them. -/
def splitBlocks (stream : ByteArray) : ByteArray × ByteArray :=
  let lineSize := (stream.data.toList.takeWhile (· != 10)).length
  let size := (lineSize / blockSize + 1) * blockSize
  (stream.extract 0 size, stream.extract size stream.size)

/-- Characters without one carriage return at their end. -/
def withoutReturn (cs : List Char) : List Char :=
  if cs.getLast? = some '\r' then cs.dropLast else cs

/-- The lines of a text; `reversed` is the line read so far, last to first. -/
def ofText (reversed : List Char) : List Char → List (List Char)
  | [] => [withoutReturn reversed.reverse]
  | '\n' :: rest => withoutReturn reversed.reverse :: ofText [] rest
  | c :: rest => ofText (c :: reversed) rest

end Lines

end Lines

end Datalog
