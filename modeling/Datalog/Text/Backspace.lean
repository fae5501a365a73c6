import Datalog.Text.Bytes
import Datalog.Text.Grapheme.Cluster

/-!
# Backspaces in a line

**Rule.** A backspace takes away the cluster before it that is left, if there is one, and itself.

**Limit.** What is remembered of a cluster is the size of its text modulo 256, and a backspace takes
away as many bytes from the end.  Where a cluster is so large that this leaves a part of a
character, the line is cut inside it and has no text.
-/

namespace Datalog

section Backspace

namespace Backspace

/-- The remembered size of a cluster. -/
def rememberedSize (cluster : List Char) : Nat :=
  Bytes.size cluster % 256

/-- What is left of clusters; `sizes` are the remembered sizes of those left so far, the last one
first, and `reversed` is their text, last character first. -/
def remaining? (sizes : List Nat) (reversed : List Char) : List (List Char) → Option (List Char)
  | [] => some reversed.reverse
  | cluster :: rest =>
      if cluster = ['\x08'] then
        match sizes with
        | [] => remaining? [] reversed rest
        | size :: before =>
            match Bytes.splitAt? size reversed with
            | none => none
            | some (_, left) => remaining? before left rest
      else
        remaining? (rememberedSize cluster :: sizes) (cluster.reverse ++ reversed) rest

/-- What is left of a line, unless it is cut inside a character. -/
def erase? (line : List Char) : Option (List Char) :=
  if line.contains '\x08' then remaining? [] [] (GraphemeCluster.ofText line) else some line

end Backspace

end Backspace

end Datalog
