import Datalog.Text.Grapheme.Class

/-!
# Grapheme clusters

**Rule.** A text falls into clusters; each character joins the cluster before it or starts one.  It
joins

* a carriage return, if it is a line feed; no other control joins or is joined;
* as a part of the same syllable;
* as a mark or a joiner, and after a mark that belongs to what follows;
* as a consonant after another one, with marks and at least one linker between them;
* as a pictograph after a joiner, if the cluster is a pictograph with marks up to there;
* as the second of two letters of a flag.
-/

namespace Datalog

section GraphemeCluster

namespace GraphemeClass

/-- Whether a character of the class stands alone. -/
def standsAlone : GraphemeClass → Bool
  | carriageReturn | lineFeed | control => true
  | _ => false

/-- Whether a character of the class belongs to the one before it. -/
def continues : GraphemeClass → Bool
  | mark | linker | joiner | nonJoiner | spacingMark => true
  | _ => false

/-- Whether a character of the class is a mark without a place of its own and no joiner. -/
def isPlainMark : GraphemeClass → Bool
  | mark | linker | nonJoiner => true
  | _ => false

/-- Whether a character of the class can stand between two consonants that a linker joins. -/
def isConjunctMark : GraphemeClass → Bool
  | mark | linker | joiner => true
  | _ => false

/-- Whether two parts in this order belong to one syllable. -/
def formSyllable : GraphemeClass → GraphemeClass → Bool
  | leadingConsonant, leadingConsonant | leadingConsonant, vowel
  | leadingConsonant, openSyllable | leadingConsonant, closedSyllable
  | openSyllable, vowel | openSyllable, trailingConsonant
  | vowel, vowel | vowel, trailingConsonant
  | closedSyllable, trailingConsonant | trailingConsonant, trailingConsonant => true
  | _, _ => false

/-- Whether a cluster ends with a consonant and marks after it of which one is a linker. -/
def endsLinked (reversed : List GraphemeClass) : Bool :=
  (reversed.takeWhile isConjunctMark).contains linker &&
    (reversed.dropWhile isConjunctMark).head? == some conjunctConsonant

/-- Whether a cluster ends with a pictograph, marks and a joiner. -/
def endsJoined : List GraphemeClass → Bool
  | joiner :: before => (before.dropWhile isPlainMark).head? == some pictograph
  | _ => false

/-- Whether a cluster ends with the first letter of a flag. -/
def endsHalfFlag (reversed : List GraphemeClass) : Bool :=
  (reversed.takeWhile (· == regionalLetter)).length % 2 == 1

/-- Whether a character joins a cluster, which is given last character first. -/
def joins (reversed : List GraphemeClass) (next : GraphemeClass) : Bool :=
  match reversed with
  | [] => false
  | last :: _ =>
      if last.standsAlone || next.standsAlone then
        last == carriageReturn && next == lineFeed
      else
        formSyllable last next || next.continues || last == prepended ||
          (next == conjunctConsonant && endsLinked reversed) ||
          (next == pictograph && endsJoined reversed) ||
          (next == regionalLetter && endsHalfFlag reversed)

end GraphemeClass

namespace GraphemeCluster

/-- The clusters of a text; `reversed` is the cluster read so far and `classes` are the classes of
its characters, last to first. -/
def split (reversed : List Char) (classes : List GraphemeClass) : List Char → List (List Char)
  | [] => if reversed.isEmpty then [] else [reversed.reverse]
  | c :: rest =>
      let next := GraphemeClass.ofChar c
      if reversed.isEmpty || GraphemeClass.joins classes next then
        split (c :: reversed) (next :: classes) rest
      else
        reversed.reverse :: split [c] [next] rest

/-- The clusters of a text. -/
def ofText (cs : List Char) : List (List Char) :=
  split [] [] cs

end GraphemeCluster

end GraphemeCluster

end Datalog
