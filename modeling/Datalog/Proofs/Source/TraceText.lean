import Datalog.Proofs.Source.StringLiteral
import Datalog.Report
import Mathlib.Data.Set.Function

/-!
# Telling rows apart by their texts

**Rows.** A program of the grammar stores rows of string literals only.

**Lines.** A trace lists its rows one to a line.  A value can hold separators, column names, doubled
apostrophes and line feeds, so neither a separator nor the end of a line bounds anything by itself.

**Results.** Under any schema, different rows of literals are rendered differently, and different
lists of them make different traces.
-/

namespace Datalog

section TraceText

namespace Row

/-- The rows of string literals with one value for each column. -/
def literals (schema : Row) : Set Row :=
  {row | row.length = schema.length ∧ ∀ value ∈ row, StringLiteral value}

/-- The rows on lines of their own, as a trace has them. -/
def lines (schema : Row) (rows : List Row) : String :=
  String.join (rows.map fun row => "  " ++ render schema row ++ "\n")

theorem toList_lines_cons (schema row : Row) (rest : List Row) :
    (lines schema (row :: rest)).toList =
      "  ".toList ++ ((render schema row).toList ++ '\n' :: (lines schema rest).toList) := by
  unfold lines
  rw [List.map_cons, String.join_cons]
  simp

/-- A rendered row ends before the end of its line, which is no apostrophe. -/
theorem eq_of_lines_eq
    {schema : Row} {rows rows' : List Row}
    (hrows : ∀ row ∈ rows, row ∈ literals schema)
    (hrows' : ∀ row ∈ rows', row ∈ literals schema)
    (heq : lines schema rows = lines schema rows') :
    rows = rows' := by
  induction rows generalizing rows' with
  | nil =>
      cases rows' with
      | nil => rfl
      | cons row' rest' =>
          have hchars := congrArg String.toList heq
          rw [toList_lines_cons] at hchars
          cases hchars
  | cons row rest ih =>
      have hchars := congrArg String.toList heq
      cases rows' with
      | nil =>
          rw [toList_lines_cons] at hchars
          cases hchars
      | cons row' rest' =>
          rw [toList_lines_cons, toList_lines_cons, List.append_right_inj] at hchars
          obtain ⟨hlength, hliteral⟩ := hrows row List.mem_cons_self
          obtain ⟨hlength', hliteral'⟩ := hrows' row' List.mem_cons_self
          have hend (after : List Char) : ('\n' :: after).head? ≠ some '\'' := by simp
          obtain ⟨rfl, hafter⟩ := render_append_inj hlength hlength' hliteral hliteral'
            (hend _) (hend _) hchars
          have hrest : rest = rest' :=
            ih (fun other hother => hrows other (List.mem_cons_of_mem _ hother))
              (fun other hother => hrows' other (List.mem_cons_of_mem _ hother))
              (String.toList_inj.1 (List.cons.inj hafter).2)
          rw [hrest]

end Row

theorem Report.traceText_render (rule : String) (schema : Row) (rows : List Row) :
    traceText ⟨rule, rows.map (Row.render schema)⟩ = rule ++ "\n" ++ Row.lines schema rows := by
  unfold traceText Row.lines
  rw [List.map_map]
  rfl

namespace Row

/-- Under any schema, two rows of string literals that are rendered alike are equal, and two lists
of such rows are equal if a rule is traced alike with them. -/
theorem texts_tell_apart (schema : Row) :
    Set.InjOn (render schema) (literals schema) ∧
      ∀ rule,
        Set.InjOn (fun rows : List Row => Report.traceText ⟨rule, rows.map (render schema)⟩)
          {rows | ∀ row ∈ rows, row ∈ literals schema} := by
  constructor
  · rintro row ⟨hlength, hliteral⟩ row' ⟨hlength', hliteral'⟩ heq
    exact eq_of_render_eq hlength hlength' hliteral hliteral' heq
  · intro rule rows hrows rows' hrows' heq
    simp only [Report.traceText_render] at heq
    have hlines := String.toList_inj.2 heq
    rw [String.toList_append, String.toList_append (s := rule ++ "\n"),
      List.append_right_inj] at hlines
    exact eq_of_lines_eq hrows hrows' (String.toList_inj.1 hlines)

/-- A separator and a column name inside a value are no boundary. -/
theorem texts_tell_separators_apart :
    let schema := ["a", "b"]
    let row := ["'x'", "'y, b=''z'''"]
    let row' := ["'x, b=''y'", "'z'"]
    row ∈ literals schema ∧ row' ∈ literals schema ∧
      render schema row ≠ render schema row' ∧
      Report.traceText ⟨"H(x,y) :- P(x,y).", [row, row'].map (render schema)⟩ ≠
        Report.traceText ⟨"H(x,y) :- P(x,y).", [row', row].map (render schema)⟩ := by
  intro schema row row'
  have hrow : row ∈ literals schema := ⟨rfl, by decide +kernel⟩
  have hrow' : row' ∈ literals schema := ⟨rfl, by decide +kernel⟩
  obtain ⟨hrender, htrace⟩ := texts_tell_apart schema
  refine ⟨hrow, hrow', fun heq => ?_, fun heq => ?_⟩
  · exact absurd (hrender hrow hrow' heq) (by decide)
  · exact absurd (htrace _ (by simp [hrow, hrow']) (by simp [hrow, hrow']) heq) (by decide)

/-- Without quotes they are: these two rows have one text. -/
example : render ["a", "b"] ["x", "y, b=z"] = render ["a", "b"] ["x, b=y", "z"] := by decide

end Row

end TraceText

end Datalog
