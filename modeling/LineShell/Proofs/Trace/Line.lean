import LineShell.Execution
import LineShell.Proofs.Trace.Growth
import LineShell.Rehearsal.Stage

namespace LineShell

/-!
# Traces of lines

The shell itself forks and waits like a process, only that it does not end.  Seen so, a line has a
trace, and the traces of lines executed one after the other make up the record.

* `Process.ofLine`, `execute_recorder` — what the shell does for a command, as a process.
* `executeAll`, `traceLines` — commands executed one after the other, and their trace.
* `executeAll_follows` — that trace is what they add to the record and to the log.
-/

/-- What the shell does to execute a command; the code at the end means nothing. -/
def Process.ofLine (session : Session) (command : Command) : Process :=
  if command.isEmpty then .note .blankCommand (.exit 0)
  else
    .note (.executing command) <| .fork (command.process session.aliases) fun
      | .error _ => .exit 0
      | .ok pid =>
        .note (.lineStarted pid) <| .wait pid fun
          | .error _ => .exit 0
          | .ok status => .note (.lineEnded status) (.exit 0)

/-- The events of one execution; those without a process number are the shell's own. -/
def traceLine (session : Session) (command : Command) (s : RehearsalStage) : List Event :=
  (Process.ofLine session command).trace none s.recorder

/-- Executes commands one after the other. -/
def executeAll (lines : List (Session × Command)) (s : RehearsalStage) : RehearsalStage :=
  lines.foldl (fun s line => (execute line.1 line.2 s).2) s

/-- The events of commands executed one after the other. -/
def traceLines : List (Session × Command) → RehearsalStage → List Event
  | [], _ => []
  | (session, command) :: lines, s =>
    traceLine session command s ++ traceLines lines (execute session command s).2

/-- Executing a command leaves the recorder as the process of the line does. -/
theorem execute_recorder (session : Session) (command : Command) (s : RehearsalStage) :
    (execute session command s).2.recorder
      = ((Process.ofLine session command).rehearse s.recorder).2 := by
  unfold execute Process.ofLine
  split
  · -- the command of a blank line
    rfl
  · simp only [System.fork, System.note, Recorder.fork, Process.rehearse]
    -- the shell forks and then waits, and either call may fail
    rcases (s.recorder.note (.executing command)).beginFork with ⟨e | pid, r⟩
    · rfl
    · simp only [awaitLine, System.wait, System.note]
      generalize Recorder.wait _ pid = waited
      rcases waited with ⟨e | status, r'⟩
      · rfl
      · rfl

/-- The lines of a second list run on what those of the first have left. -/
theorem traceLines_append (lines lines' : List (Session × Command)) (s : RehearsalStage) :
    traceLines (lines ++ lines') s
      = traceLines lines s ++ traceLines lines' (executeAll lines s) := by
  induction lines generalizing s with
  | nil => rfl
  | cons line lines ih =>
    rw [List.cons_append, traceLines, traceLines, ih, List.append_assoc]
    rfl

/-- The trace of one execution is what it adds to the record and to the log. -/
theorem execute_follows (session : Session) (command : Command) (s : RehearsalStage) :
    s.recorder.Follows (traceLine session command s) (execute session command s).2.recorder := by
  rw [execute_recorder]
  exact (runs_trace _ none _).follows

/-- The trace of executions is what they add to the record and to the log. -/
theorem executeAll_follows (lines : List (Session × Command)) (s : RehearsalStage) :
    s.recorder.Follows (traceLines lines s) (executeAll lines s).recorder := by
  induction lines generalizing s with
  | nil => exact Recorder.Follows.refl _
  | cons line lines ih => exact (execute_follows line.1 line.2 s).append (ih _)

end LineShell
