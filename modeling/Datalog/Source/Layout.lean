/-!
# Layout of a source text

**Rule.** Blanks, tabs, line feeds and carriage returns separate tokens, and so do comments.

* A block comment runs from `#|` to the first `|#` after it.
* Any other `#`, also one that opens a block comment without an end, starts a line comment: it
  runs up to the next line feed or carriage return, or to the end of the text.
-/

namespace Datalog

section Layout

namespace Layout

/-- Whether a character separates tokens. -/
def isBlank (c : Char) : Bool :=
  c == ' ' || c == '\t' || c == '\r' || c == '\n'

/-- Whether a character ends a line. -/
def endsLine (c : Char) : Bool :=
  c == '\r' || c == '\n'

/-- What follows the first `|#`. -/
def afterBlock? : List Char → Option (List Char)
  | [] => none
  | '|' :: '#' :: rest => some rest
  | _ :: rest => afterBlock? rest

/-- The text from the next line end on. -/
def afterLine (cs : List Char) : List Char :=
  cs.dropWhile fun c => !endsLine c

/-- What follows a comment, given what follows its `#`. -/
def afterComment (cs : List Char) : List Char :=
  match cs with
  | '|' :: inner => (afterBlock? inner).getD (afterLine cs)
  | _ => afterLine cs

theorem length_afterBlock?_le {cs rest : List Char} (h : afterBlock? cs = some rest) :
    rest.length ≤ cs.length := by
  fun_induction afterBlock? cs with
  | case1 => simp at h
  | case2 rest' =>
      cases h
      simp only [List.length_cons]
      omega
  | case3 c rest' _ ih =>
      have hle := ih h
      simp only [List.length_cons]
      omega

theorem length_afterLine_le (cs : List Char) : (afterLine cs).length ≤ cs.length :=
  (List.dropWhile_sublist _).length_le

theorem length_afterComment_le (cs : List Char) : (afterComment cs).length ≤ cs.length := by
  rw [afterComment.eq_def]
  split
  · rename_i inner
    cases hinner : afterBlock? inner with
    | none => exact length_afterLine_le _
    | some rest =>
        have hle := length_afterBlock?_le hinner
        simp only [Option.getD_some, List.length_cons]
        omega
  · exact length_afterLine_le _

/-- The text from its first token on. -/
def skip : List Char → List Char
  | [] => []
  | c :: rest =>
      if isBlank c then
        skip rest
      else if c = '#' then
        skip (afterComment rest)
      else
        c :: rest
termination_by cs => cs.length
decreasing_by
  · exact Nat.lt_succ_self _
  · exact Nat.lt_succ_of_le (length_afterComment_le rest)

theorem length_skip_le (cs : List Char) : (skip cs).length ≤ cs.length := by
  fun_induction skip cs with
  | case1 => exact Nat.le_refl _
  | case2 c rest _ ih =>
      simp only [List.length_cons]
      omega
  | case3 rest _ ih =>
      have hle := length_afterComment_le rest
      simp only [List.length_cons]
      omega
  | case4 => exact Nat.le_refl _

end Layout

end Layout

end Datalog
