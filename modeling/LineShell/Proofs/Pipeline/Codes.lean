import LineShell.Execution
import LineShell.Proofs.Pipeline.Answers

namespace LineShell

/-!
# Codes of pipelines

The code of a pipeline is decided by the codes of its stages: the rightmost one that counts as
failed gives it.  A stage before the last one does not count as failed if it only lost its reader.

* `Command.stages` — the stages of a command.
* `stageCode`, `stageAttempt?` — the code of a stage, and what it tries to run.
* `pipelineCode` — the code of a pipeline from those of its stages.
* `pipelineCode_cons`, `ChildStatus.code_combine` — pairs of statuses combined from the right give
  that code.
-/

/-! ### Stages -/

namespace Command

/-- The stages of a command: what is joined by the pipes along its right side. -/
def stages : Command → List Command
  | .pipe left right => left :: right.stages
  | c => [c]

/-- The words of the program of a stage. -/
def program : Command → List String
  | .exec argv => argv
  | .pipe _ _ => []
  | .redirect inner _ _ => inner.program

/-- The files that a stage reads. -/
def inputs : Command → List String
  | .exec _ => []
  | .pipe _ _ => []
  | .redirect inner .input path => path :: inner.inputs
  | .redirect inner .output _ => inner.inputs

/-- Every command has a stage. -/
theorem stages_ne_nil (c : Command) : c.stages ≠ [] := by
  cases c <;> simp [stages]

/-- A stage is the only one of itself. -/
theorem Stage.stages_eq {c : Command} (h : Stage c) : c.stages = [c] := by
  cases h <;> rfl

end Command

/-- Whether a file that a stage reads is missing. -/
def World.lacksInput (world : World) (stage : Command) : Prop :=
  ∃ path ∈ stage.inputs, path ∈ world.missingFiles

instance (world : World) (stage : Command) : Decidable (world.lacksInput stage) :=
  inferInstanceAs (Decidable (∃ path ∈ stage.inputs, path ∈ world.missingFiles))

/-- The code of a stage whose program is run by the process `runner`: its words are those that the
aliases make of it, without the blank ones. -/
def stageCode (world : World) (aliases : AliasTable) (stage : Command) (runner : Pid) : Int :=
  if world.lacksInput stage then 1
  else
    match (aliases.expand stage.program).filter fun word => !isAllSpaces word with
    | [] => 2
    | program :: _ =>
      if program ∈ world.missingPrograms then 127
      else world.reported runner (world.exitCode program)

/-- What a stage tries to run, if it gets that far. -/
def stageAttempt? (world : World) (aliases : AliasTable) (stage : Command) :
    Option (List String) :=
  if world.lacksInput stage then none
  else
    match (aliases.expand stage.program).filter fun word => !isAllSpaces word with
    | [] => none
    | program :: arguments => some (program :: arguments)

/-- What the stages of a pipeline try to run, each in the process that goes with it. -/
def attemptsBy (world : World) (aliases : AliasTable) (stages : List Command)
    (runners : List Pid) : List (Pid × List String) :=
  (stages.zip runners).filterMap fun (stage, runner) =>
    (stageAttempt? world aliases stage).map (runner, ·)

/-- The attempts of the first stage come before those of the others. -/
theorem attemptsBy_cons (world : World) (aliases : AliasTable) (stage : Command)
    (stages : List Command) (runner : Pid) (runners : List Pid) :
    attemptsBy world aliases (stage :: stages) (runner :: runners)
      = attemptsBy world aliases [stage] [runner] ++ attemptsBy world aliases stages runners := by
  rw [attemptsBy, List.zip_cons_cons, ← List.singleton_append, List.filterMap_append]
  rfl

section Stage

variable {world : World} {aliases : AliasTable} {argv : List String} {inner : Command}
  {direction : Direction} {path : String}

/-- A program alone reads no file. -/
theorem not_lacksInput_exec : ¬ world.lacksInput (.exec argv) := by
  simp [World.lacksInput, Command.inputs]

/-- A program alone has the code that the words decide that it is started with. -/
theorem stageCode_exec (runner : Pid) :
    stageCode world aliases (.exec argv) runner
      = match launchWords aliases argv with
        | [] => 2
        | program :: _ =>
          if program ∈ world.missingPrograms then 127
          else world.reported runner (world.exitCode program) := by
  rw [stageCode, if_neg not_lacksInput_exec]
  rfl

/-- A program alone is tried with the words that it is started with, if there are any. -/
theorem attemptsBy_exec (runner : Pid) :
    attemptsBy world aliases [.exec argv] [runner]
      = match launchWords aliases argv with
        | [] => []
        | program :: arguments => [(runner, program :: arguments)] := by
  have attempt : stageAttempt? world aliases (.exec argv)
      = match launchWords aliases argv with
        | [] => none
        | program :: arguments => some (program :: arguments) := by
    rw [stageAttempt?, if_neg not_lacksInput_exec]
    rfl
  simp only [attemptsBy, List.zip_cons_cons, List.zip_nil_right, List.filterMap_cons, attempt,
    List.filterMap_nil]
  cases launchWords aliases argv <;> rfl

/-- A redirect adds its file to those that are to be read, if it is one of input. -/
theorem lacksInput_redirect :
    world.lacksInput (.redirect inner direction path) ↔
      (direction = .input ∧ path ∈ world.missingFiles) ∨ world.lacksInput inner := by
  cases direction <;> simp [World.lacksInput, Command.inputs]

/-- A redirect that does not fail leaves the stage what it is. -/
theorem stageCode_redirect (h : ¬ (direction = .input ∧ path ∈ world.missingFiles)) (runner : Pid) :
    stageCode world aliases (.redirect inner direction path) runner
      = stageCode world aliases inner runner := by
  simp only [stageCode, lacksInput_redirect, h, false_or, Command.program]

/-- A redirect that does not fail leaves to the stage what it tries to run. -/
theorem stageAttempt?_redirect (h : ¬ (direction = .input ∧ path ∈ world.missingFiles)) :
    stageAttempt? world aliases (.redirect inner direction path)
      = stageAttempt? world aliases inner := by
  simp only [stageAttempt?, lacksInput_redirect, h, false_or, Command.program]

end Stage

/-! ### Pipelines -/

/-- The codes of the stages that count as failed, in order. -/
def failedCodes (codes : List Int) : List Int :=
  codes.dropLast.filter (fun code => code ≠ 0 ∧ code ≠ 141) ++
    codes.getLast?.toList.filter (fun code => code ≠ 0)

/-- The code of a pipeline: that of the rightmost stage that counts as failed, zero if none does. -/
def pipelineCode (codes : List Int) : Int :=
  (failedCodes codes).getLast?.getD 0

/-- No stage with code zero counts as failed. -/
theorem ne_zero_of_mem_failedCodes {codes : List Int} {code : Int} (h : code ∈ failedCodes codes) :
    code ≠ 0 := by
  rcases List.mem_append.1 h with h | h
  · exact (of_decide_eq_true (List.mem_filter.1 h).2).1
  · exact of_decide_eq_true (List.mem_filter.1 h).2

/-- A single stage gives its own code. -/
@[simp]
theorem pipelineCode_singleton (code : Int) : pipelineCode [code] = code := by
  by_cases h : code = 0 <;> simp [pipelineCode, failedCodes, h]

/-- One more stage on the left counts only if all others succeed. -/
theorem pipelineCode_cons (code : Int) {codes : List Int} (h : codes ≠ []) :
    pipelineCode (code :: codes)
      = if pipelineCode codes = 0 ∧ code ≠ 0 ∧ code ≠ 141 then code else pipelineCode codes := by
  obtain ⟨c, cs, rfl⟩ := List.exists_cons_of_ne_nil h
  have hcodes : failedCodes (code :: c :: cs)
      = [code].filter (fun code => code ≠ 0 ∧ code ≠ 141) ++ failedCodes (c :: cs) := by
    rw [failedCodes, failedCodes, List.dropLast_cons_cons, List.getLast?_cons_cons,
      ← List.singleton_append, List.filter_append, List.append_assoc]
  rw [pipelineCode, hcodes, List.getLast?_append]
  rcases hlast : (failedCodes (c :: cs)).getLast? with _ | failed
  · -- none of the others counts as failed
    have hzero : pipelineCode (c :: cs) = 0 := by rw [pipelineCode, hlast]; rfl
    by_cases hcode : code ≠ 0 ∧ code ≠ 141 <;> simp [hzero, hcode]
  · have hfailed : pipelineCode (c :: cs) = failed := by rw [pipelineCode, hlast]; rfl
    have hne : failed ≠ 0 := ne_zero_of_mem_failedCodes (List.mem_of_getLast? hlast)
    simp [hfailed, hne]

/-! ### Pairs of statuses -/

namespace ChildStatus

/-- A status is one of success when it stands for code zero. -/
theorem isSuccess_eq (s : ChildStatus) : s.isSuccess = (s.code == 0) := by
  cases s with
  | exited pid code => rfl
  | signaled pid signal =>
    have : (128 + (signal.number : Int)) ≠ 0 := by omega
    simpa [isSuccess, code] using this

/-- The status of a pipe stands for the code of its left side only if the right one succeeds and
the left one failed other than by losing its reader. -/
theorem code_combine (left right : ChildStatus) :
    (left.combine right).code
      = if right.code = 0 ∧ left.code ≠ 0 ∧ left.code ≠ 141 then left.code else right.code := by
  have hbroken : left.isBrokenPipe = (left.code == 141) := rfl
  rw [combine, isSuccess_eq, isSuccess_eq, hbroken]
  by_cases hr : right.code = 0 <;> by_cases hl : left.code = 0 <;>
    by_cases hp : left.code = 141 <;> simp [hr, hl, hp]

end ChildStatus

end LineShell
