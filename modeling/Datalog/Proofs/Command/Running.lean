import Datalog.Command.Directory
import Datalog.Proofs.Evaluation.LeastModel

/-!
# Runs of the command

**Stages.** A run sets itself up from the settings files and the environment, reads a program and
the lines to answer, and has an outcome that follows from these.

**Results.** A run reads nothing of a directory but the settings files and the program file.  The
option `--no-optimize` changes what a run reports of the evaluation of the rules, and neither its
answers nor how it ends.
-/

namespace Datalog

section Running

namespace Directory

variable {directory other : Directory} {arguments arguments' : List String} {options : Options}
variable {environment : List (String × String)} {input : ByteArray} {flag : Bool}

/-- What a run reads once it is set up, with what is left of the input. -/
def prepare (directory : Directory) (options : Options) (input : ByteArray) :
    Except Failure (Program × List (List UInt8)) × ByteArray :=
  let (blocks, afterBlocks) :=
    if options.file.isSome then (ByteArray.empty, input) else Lines.splitBlocks input
  match options.file.elim (Run.programFile blocks) .ok with
  | .error failure => (.error failure, afterBlocks)
  | .ok name =>
      let (content, afterFile) := directory.read name afterBlocks
      match Run.readProgram name content with
      | .error failure => (.error failure, afterFile)
      | .ok program =>
          let (rest, left) :=
            if options.repl then (afterFile, ByteArray.empty) else (ByteArray.empty, afterFile)
          let lines := Lines.ofBytes (blocks ++ rest)
          let asked := if options.file.isSome then lines else lines.tail
          (.ok (program, if options.repl then asked else []), left)

theorem bind_apply
    {α β : Type} (first : StateM ByteArray α) (next : α → StateM ByteArray β) (input : ByteArray) :
    (first >>= next) input = next (first input).1 (first input).2 :=
  rfl

theorem modifyGet_apply
    {α : Type} (change : ByteArray → α × ByteArray) (input : ByteArray) :
    (modifyGet change : StateM ByteArray α) input = change input :=
  rfl

/-- A run sets itself up, reads what it needs, and has the outcome of that. -/
theorem run_eq
    (h : Options.ofArguments arguments = .ok options) :
    directory.run arguments environment input =
      match Run.setup options ((Run.settingsFiles options).map directory.file?) environment with
      | .error failure => (.ofFailure failure, input)
      | .ok (settings, filter) =>
          match directory.prepare options input with
          | (.error failure, left) => (.ofFailure failure, left)
          | (.ok (program, lines), left) =>
              (Run.outcome options settings filter program lines, left) := by
  have hfiles : (Run.settingsFiles options).mapM
      (fun path => (pure (directory.file? path) : StateM ByteArray (Option ByteArray))) =
        pure ((Run.settingsFiles options).map directory.file?) := by
    induction Run.settingsFiles options with
    | nil => rfl
    | cons path rest ih =>
      rw [List.mapM_cons, ih]
      rfl
  unfold run Datalog.run prepare
  rw [h]
  simp only [hfiles, pure_bind]
  cases Run.setup options ((Run.settingsFiles options).map directory.file?) environment with
  | error failure => rfl
  | ok found =>
      obtain ⟨noOptimize, printProgram, repl, config, file⟩ := options
      cases file with
      | none =>
          simp only [bind_apply, modifyGet_apply, Option.isSome_none, Option.elim_none,
            Bool.false_eq_true, if_false]
          cases Run.programFile (Lines.splitBlocks input).1 with
          | error failure => rfl
          | ok name =>
              simp only [bind_apply]
              cases Run.readProgram name (directory.read name (Lines.splitBlocks input).2).1 with
              | error failure => rfl
              | ok program => cases repl <;> rfl
      | some name =>
          simp only [bind_apply, Option.isSome_some, Option.elim_some, if_true]
          cases Run.readProgram name (directory.read name input).1 with
          | error failure => rfl
          | ok program => cases repl <;> rfl

theorem prepare_congr
    (h : ∀ name, options.file.elim (Run.programFile (Lines.splitBlocks input).1) .ok = .ok name →
      directory.read name = other.read name) :
    directory.prepare options input = other.prepare options input := by
  unfold prepare
  cases hfile : options.file with
  | none =>
      simp only [Option.isSome_none, Option.elim_none, Bool.false_eq_true, if_false]
      cases hname : Run.programFile (Lines.splitBlocks input).1 with
      | error failure => rfl
      | ok name =>
          rw [hfile] at h
          simp only [h name hname]
  | some name =>
      rw [hfile] at h
      simp only [Option.elim_some, h name rfl]

/-- A run depends on its directory through the settings files and the program file only. -/
theorem run_congr
    (h : Options.ofArguments arguments = .ok options)
    (hsettings : ∀ path ∈ Run.settingsFiles options, directory.file? path = other.file? path)
    (hprogram : ∀ name, options.file.elim (Run.programFile (Lines.splitBlocks input).1) .ok =
      .ok name → directory.read name = other.read name) :
    directory.run arguments environment input = other.run arguments environment input := by
  rw [run_eq h, run_eq h, List.map_congr_left hsettings, prepare_congr hprogram]

/-- Options that differ in the schedule set a run up alike. -/
theorem setup_cases
    (options : Options) (flag : Bool) (contents : List (Option ByteArray))
    (environment : List (String × String)) :
    (∃ failure, Run.setup options contents environment = .error failure ∧
        Run.setup { options with noOptimize := flag } contents environment = .error failure) ∨
      ∃ settings settings' filter,
        Run.setup options contents environment = .ok (settings, filter) ∧
          Run.setup { options with noOptimize := flag } contents environment =
            .ok (settings', filter) := by
  unfold Run.setup Run.settings
  cases Settings.ofSources contents environment with
  | error error =>
      refine .inl ?_
      cases error <;> exact ⟨_, rfl, rfl⟩
  | ok settings =>
      simp only
      cases LogFilter.ofTexts? (environment.lookup "RUST_LOG") settings.logging.level with
      | none => exact .inl ⟨_, rfl, rfl⟩
      | some filter => exact .inr ⟨_, _, filter, rfl, rfl⟩

theorem factsLiteral_of_prepare
    {program : Program} {lines : List (List UInt8)} {left : ByteArray}
    (h : directory.prepare options input = (.ok (program, lines), left)) :
    program.FactsLiteral := by
  have hread (name : String) (content : Option ByteArray)
      (hprogram : Run.readProgram name content = .ok program) : program.FactsLiteral := by
    unfold Run.readProgram at hprogram
    split at hprogram
    · cases hprogram
    · split at hprogram
      · cases hprogram
      · rename_i hparse
        cases hprogram
        exact (Program.shaped_of_parse hparse).factsLiteral
  unfold prepare at h
  simp only at h
  split at h
  · cases h
  · split at h
    · cases h
    · rename_i hprogram
      cases h
      exact hread _ _ hprogram

theorem outcome_ignores_schedule
    {program : Program}
    (hliteral : program.FactsLiteral)
    (options : Options) (flag : Bool) (settings settings' : Settings) (filter : LogFilter)
    (lines : List (List UInt8)) :
    let evaluation := Evaluation.ofProgram settings.evaluation program
    let evaluation' := Evaluation.ofProgram settings'.evaluation program
    let first := Run.outcome options settings filter program lines
    let second := Run.outcome { options with noOptimize := flag } settings' filter program lines
    second.status = first.status ∧ evaluation'.report.answers = evaluation.report.answers ∧
      ∃ front back, first.output = front ++ evaluation.report.text ++ back ∧
        second.output = front ++ evaluation'.report.text ++ back := by
  intro evaluation evaluation' first second
  have hsame : evaluation'.database = evaluation.database :=
    (Program.isLeast_database hliteral settings'.evaluation).unique
      (Program.isLeast_database hliteral settings.evaluation)
  refine ⟨?_, ?_, if options.printProgram then program.text ++ "\n\n" else "",
    "\n" ++ (Run.replies evaluation.database lines).1, ?_, ?_⟩
  · change (if (Run.replies evaluation'.database lines).2 then _ else _) =
      if (Run.replies evaluation.database lines).2 then _ else _
    rw [hsame]
  · change program.queries.map evaluation'.database.answer =
      program.queries.map evaluation.database.answer
    rw [hsame]
  · change Run.output options program evaluation ++ (Run.replies evaluation.database lines).1 = _
    rw [Run.output, String.append_assoc, String.append_assoc]
  · change Run.output options program evaluation' ++ (Run.replies evaluation'.database lines).1 = _
    rw [Run.output, hsame, String.append_assoc, String.append_assoc]

/-- Two runs whose arguments differ in `--no-optimize` leave the same of the input and end with the
same status.  They fail alike, or print the same but for the reports, which have the same
answers. -/
theorem run_ignores_schedule
    (h : Options.ofArguments arguments = .ok options)
    (h' : Options.ofArguments arguments' = .ok { options with noOptimize := flag })
    (directory : Directory) (environment : List (String × String)) (input : ByteArray) :
    let first := directory.run arguments environment input
    let second := directory.run arguments' environment input
    second.2 = first.2 ∧ second.1.status = first.1.status ∧
      (second.1 = first.1 ∨ ∃ program switches switches' front back,
        (Evaluation.ofProgram switches' program).report.answers =
            (Evaluation.ofProgram switches program).report.answers ∧
          first.1.output = front ++ (Evaluation.ofProgram switches program).report.text ++ back ∧
          second.1.output =
            front ++ (Evaluation.ofProgram switches' program).report.text ++ back) := by
  -- The settings files and what is read do not depend on the schedule.
  have hprepare : directory.prepare { options with noOptimize := flag } input =
      directory.prepare options input := by
    simp only [prepare]
  have hfiles : Run.settingsFiles { options with noOptimize := flag } =
      Run.settingsFiles options := rfl
  simp only [run_eq h, run_eq h', hprepare, hfiles]
  rcases setup_cases options flag ((Run.settingsFiles options).map directory.file?) environment with
    ⟨failure, hsetup, hsetup'⟩ | ⟨settings, settings', filter, hsetup, hsetup'⟩
  · simp only [hsetup, hsetup', true_or, and_self]
  · simp only [hsetup, hsetup']
    cases hread : directory.prepare options input with
    | mk prepared left =>
        cases prepared with
        | error failure => simp only [true_or, and_self]
        | ok found =>
            obtain ⟨program, lines⟩ := found
            simp only [true_and]
            obtain ⟨hstatus, hanswers, front, back, hfirst, hsecond⟩ :=
              outcome_ignores_schedule (factsLiteral_of_prepare hread) options flag settings
                settings' filter lines
            exact ⟨hstatus, .inr ⟨program, settings.evaluation, settings'.evaluation, front,
              back, hanswers, hfirst, hsecond⟩⟩

example (directory : Directory) (environment : List (String × String)) (input : ByteArray) :
    (directory.run ["rules.dl", "--no-optimize"] environment input).1.status =
      (directory.run ["rules.dl"] environment input).1.status := by
  have h : Options.ofArguments ["rules.dl"] =
      .ok ⟨false, false, false, none, some "rules.dl"⟩ := by rfl
  have h' : Options.ofArguments ["rules.dl", "--no-optimize"] =
      .ok ⟨true, false, false, none, some "rules.dl"⟩ := by rfl
  exact (run_ignores_schedule h h' directory environment input).2.1

end Directory

end Running

end Datalog
