import LineShell.Execution
import LineShell.Proofs.Aliasing.Entries
import LineShell.Rehearsal.Stage

namespace LineShell

/-!
# Aliases are replaced once, in the command

A command that is run with aliases runs as the command without aliases whose programs have theirs
replaced beforehand.  So nothing is replaced twice, and what is not the first word of a program is
left alone.

* `process_mapArgv` — both commands are realized by one process.
* `Recorder.withLog`, `Process.rehearse_withLog` — a process does not look at the log, which is all
  that tells the two apart: it names the command that is about to run.
* `execute_mapArgv` — both runs make the same calls, give the same result and warn of the same.
-/

/-! ### One process -/

/-- Replacing aliases beforehand, the process is the same. -/
theorem process_mapArgv (table : AliasTable) (command : Command) :
    (command.mapArgv table.expand).process .empty = command.process table := by
  induction command with
  | exec argv =>
    show launch .empty (table.expand argv) = launch table argv
    rw [launch, launch, launchWords, launchWords, AliasTable.expand_empty]
  | pipe left right ihl ihr => rw [Command.mapArgv, Command.process, Command.process, ihl, ihr]
  | redirect inner direction path ih => rw [Command.mapArgv, Command.process, Command.process, ih]

/-- The command of a blank line stays one, and no other becomes one. -/
theorem isEmpty_mapArgv {table : AliasTable} (worded : table.Worded) (command : Command) :
    (command.mapArgv table.expand).isEmpty = command.isEmpty := by
  cases command with
  | exec argv =>
    rw [Command.mapArgv, Command.isEmpty_exec, Command.isEmpty_exec, Bool.eq_iff_iff,
      List.isEmpty_iff, List.isEmpty_iff, worded.expand_eq_nil_iff]
  | pipe left right => rfl
  | redirect inner direction path => rfl

/-! ### Logs -/

namespace Recorder

/-- A recorder with some records before its log. -/
def withLog (log : List Notice) (r : Recorder) : Recorder :=
  { r with notices := log ++ r.notices }

variable (log : List Notice) (r : Recorder)

/-- A longer log changes nothing in the record of calls. -/
@[simp]
theorem withLog_calls : (r.withLog log).calls = r.calls := rfl

/-- The notices that were put in front of a log stand before its own. -/
@[simp]
theorem withLog_notices : (r.withLog log).notices = log ++ r.notices := rfl

/-- A notice goes behind whatever the log holds already. -/
theorem note_withLog (notice : Notice) :
    (r.withLog log).note notice = (r.note notice).withLog log := by
  simp [note, withLog]

/-- Whether a call fails does not depend on the log. -/
theorem attempt_withLog (kind : CallKind) :
    (r.withLog log).attempt kind = ((r.attempt kind).1, (r.attempt kind).2.withLog log) := by
  have hfault : (r.withLog log).world.fault? kind ((r.withLog log).attempts kind)
      = r.world.fault? kind (r.attempts kind) := rfl
  simp only [attempt, hfault]
  cases r.world.fault? kind (r.attempts kind) <;> rfl

/-- The number of a child does not depend on the log. -/
theorem beginFork_withLog :
    (r.withLog log).beginFork = (r.beginFork.1, r.beginFork.2.withLog log) := by
  have hfork : ((r.withLog log).world.failingFork = some (r.withLog log).forks)
      = (r.world.failingFork = some r.forks) := rfl
  simp only [beginFork, hfork]
  split <;> rfl

/-- The end of a child is recorded whatever the log holds. -/
theorem endFork_withLog (pid : Pid) (code : Int) :
    (r.withLog log).endFork pid code = (r.endFork pid code).withLog log := rfl

/-- The ends of a pipe do not depend on the log. -/
theorem pipe_withLog : (r.withLog log).pipe = (r.pipe.1, r.pipe.2.withLog log) := by
  simp only [pipe, r.attempt_withLog log]
  rcases r.attempt .pipe with ⟨_ | e, r'⟩ <;> rfl

theorem plainCall_withLog (kind : CallKind) (call : Call) :
    (r.withLog log).plainCall kind call
      = ((r.plainCall kind call).1, (r.plainCall kind call).2.withLog log) := by
  simp only [plainCall, r.attempt_withLog log]
  rcases r.attempt kind with ⟨_ | e, r'⟩ <;> rfl

/-- The descriptor of a file that is opened does not depend on the log. -/
theorem openFile_withLog (path : String) (direction : Direction) :
    (r.withLog log).openFile path direction
      = ((r.openFile path direction).1, (r.openFile path direction).2.withLog log) := by
  simp only [openFile, r.attempt_withLog log]
  rcases r.attempt .openFile with ⟨_ | e, r'⟩
  · have hmissing : ((r'.withLog log).record (.openFile path direction)).world.missingFiles
        = (r'.record (.openFile path direction)).world.missingFiles := rfl
    simp only [hmissing]
    split <;> rfl
  · rfl

/-- What becomes of a program does not depend on the log. -/
theorem exec_withLog (argv : List String) :
    (r.withLog log).exec argv = ((r.exec argv).1, (r.exec argv).2.withLog log) := by
  simp only [exec, r.attempt_withLog log]
  rcases r.attempt .exec with ⟨_ | e, r'⟩
  · have hmissing : ((r'.withLog log).record (.exec argv)).world.missingPrograms
        = (r'.record (.exec argv)).world.missingPrograms := rfl
    simp only [hmissing]
    split <;> rfl
  · rfl

/-- What is heard of a child does not depend on the log. -/
theorem wait_withLog (pid : Pid) :
    (r.withLog log).wait pid = ((r.wait pid).1, (r.wait pid).2.withLog log) := by
  simp only [wait, r.attempt_withLog log]
  rcases r.attempt .wait with ⟨_ | e, r'⟩
  · have hcodes : ((r'.withLog log).record (.wait pid)).codes.lookup pid
        = (r'.record (.wait pid)).codes.lookup pid := rfl
    have hsignals : ((r'.withLog log).record (.wait pid)).world.signals.lookup pid
        = (r'.record (.wait pid)).world.signals.lookup pid := rfl
    simp only [hcodes, hsignals]
    split
    · rfl
    · split <;> rfl
  · rfl

end Recorder

/-- **Logs.** A process does the same whatever stands in the log already. -/
theorem Process.rehearse_withLog (log : List Notice) (p : Process) (r : Recorder) :
    p.rehearse (r.withLog log) = ((p.rehearse r).1, (p.rehearse r).2.withLog log) := by
  induction p generalizing r with
  | exit code => rfl
  | fork child next ihc ihn =>
    simp only [Process.rehearse, r.beginFork_withLog log]
    rcases r.beginFork with ⟨e | pid, r'⟩
    · exact ihn (.error e) r'
    · -- the child runs to its end before the process goes on
      simp only [ihc r', Recorder.endFork_withLog]
      exact ihn (.ok pid) _
  | pipe next ih =>
    simp only [Process.rehearse, r.pipe_withLog log]
    exact ih _ _
  | dup2 source target next ih =>
    simp only [Process.rehearse, r.plainCall_withLog log]
    exact ih _ _
  | close descriptor next ih =>
    simp only [Process.rehearse, r.plainCall_withLog log]
    exact ih _ _
  | openFile path direction next ih =>
    simp only [Process.rehearse, r.openFile_withLog log]
    exact ih _ _
  | exec argv next ih =>
    simp only [Process.rehearse, r.exec_withLog log]
    rcases r.exec argv with ⟨e | code, r'⟩
    · exact ih e r'
    · rfl
  | wait pid next ih =>
    simp only [Process.rehearse, r.wait_withLog log]
    exact ih _ _
  | note notice next ih =>
    simp only [Process.rehearse, r.note_withLog log]
    exact ih _
  | report failure next ih => exact ih r

/-- A child runs the same way behind a longer log. -/
theorem Recorder.fork_withLog (log : List Notice) (child : Process) (r : Recorder) :
    (r.withLog log).fork child = ((r.fork child).1, (r.fork child).2.withLog log) := by
  simp only [Recorder.fork, r.beginFork_withLog log]
  rcases r.beginFork with ⟨e | pid, r'⟩
  · rfl
  · simp only [Process.rehearse_withLog, Recorder.endFork_withLog]

/-! ### Runs -/

/-- A stage with some records before its log. -/
def RehearsalStage.withLog (log : List Notice) (s : RehearsalStage) : RehearsalStage :=
  { s with recorder := s.recorder.withLog log }

/-- What the shell does with the process of a line. -/
def runLine {σ : Type} [System σ] (process : Process) (s : σ) :
    Except Failure (Option ChildStatus) × σ :=
  match System.fork process s with
  | (.error e, s) => (.error (.call .fork e), s)
  | (.ok pid, s) =>
    let ended := awaitLine pid (System.note (.lineStarted pid) s)
    (ended.1.map some, ended.2)

/-- A command that is not empty is run as its process, once the log has been told. -/
theorem execute_of_named {session : Session} {command : Command} (named : command.isEmpty = false)
    (s : RehearsalStage) :
    execute session command s
      = runLine (command.process session.aliases) (System.note (.executing command) s) := by
  rw [execute, if_neg (Bool.eq_false_iff.1 named)]
  rfl

/-- The process of a line runs the same way behind a longer log. -/
theorem runLine_withLog (log : List Notice) (process : Process) (s : RehearsalStage) :
    runLine process (s.withLog log)
      = ((runLine process s).1, (runLine process s).2.withLog log) := by
  simp only [runLine, System.fork, RehearsalStage.withLog, Recorder.fork_withLog]
  rcases s.recorder.fork process with ⟨e | pid, r⟩
  · rfl
  · simp only [awaitLine, System.note, System.wait, Recorder.note_withLog, Recorder.wait_withLog]
    rcases (r.note (.lineStarted pid)).wait pid with ⟨e | status, r'⟩
    · rfl
    · simp only [Recorder.note_withLog]

/-- A stage whose log is still empty. -/
def RehearsalStage.unlogged (s : RehearsalStage) : RehearsalStage :=
  { s with recorder := { s.recorder with notices := [] } }

/-- A record that is added to a log comes behind what stands there. -/
theorem note_eq_withLog (notice : Notice) (s : RehearsalStage) :
    System.note notice s = s.unlogged.withLog (s.recorder.notices ++ [notice]) := by
  simp [System.note, Recorder.note, RehearsalStage.withLog, RehearsalStage.unlogged,
    Recorder.withLog]

/-- The record says that something went wrong. -/
def Notice.isSerious (notice : Notice) : Bool :=
  Level.warn.admits notice.level

/-- **Aliases.** Let the aliases of a table come about by definitions.  A command that is run with
them, and the command in which the words of each program are replaced first, run without aliases,
make the same calls, give the same result and leave the same warnings and errors in the log, in
every world.  One of them holds nothing to run exactly when the other does, and replacing touches
only the first word of a program. -/
theorem execute_mapArgv {table : AliasTable} (reachable : table.Reachable) (home : String)
    (command : Command) (s : RehearsalStage) :
    let replaced := command.mapArgv table.expand
    let ran := execute ⟨home, table⟩ command s
    let ran' := execute ⟨home, .empty⟩ replaced s
    ran.1 = ran'.1 ∧ ran.2.recorder.calls = ran'.2.recorder.calls ∧
      ran.2.recorder.notices.filter Notice.isSerious
        = ran'.2.recorder.notices.filter Notice.isSerious ∧
      replaced.isEmpty = command.isEmpty ∧
      ∀ first rest, table.expand (first :: rest) = (table.resolve first).getD [first] ++ rest := by
  intro replaced ran ran'
  have hempty : replaced.isEmpty = command.isEmpty := isEmpty_mapArgv reachable.worded command
  rw [← and_assoc, ← and_assoc]
  refine ⟨?_, hempty, table.expand_cons⟩
  cases named : command.isEmpty with
  | true =>
    -- nothing is run in either case
    have hran : ran = (.ok none, System.note .blankCommand s) := if_pos named
    have hran' : ran' = (.ok none, System.note .blankCommand s) := if_pos (hempty.trans named)
    rw [hran, hran']
    exact ⟨⟨rfl, rfl⟩, rfl⟩
  | false =>
    -- one process is run, behind logs that differ in what is said of the command
    have hran : ran = runLine (command.process table) (System.note (.executing command) s) :=
      execute_of_named named s
    have hran' : ran' = runLine (command.process table) (System.note (.executing replaced) s) := by
      rw [← process_mapArgv]
      exact execute_of_named (hempty.trans named) s
    rw [hran, hran', note_eq_withLog, note_eq_withLog, runLine_withLog, runLine_withLog]
    refine ⟨⟨rfl, rfl⟩, ?_⟩
    simp only [RehearsalStage.withLog, Recorder.withLog_notices, List.filter_append]
    rfl

/-- The alias `l` stands for another alias, which is not replaced in turn; the fourth close of the
run fails. -/
theorem execute_mapArgv_once :
    let table := AliasTable.defaults.updateAll [.load "l=ls;ls=ls -a"]
    let command := Command.pipe (.exec ["l", "l"]) (.redirect (.exec ["ll"]) .output "f")
    let replaced := Command.pipe (.exec ["ls", "l"]) (.redirect (.exec ["ls", "-l"]) .output "f")
    let s : RehearsalStage := ⟨{ world := { faults := [⟨.close, 3, .ebadf⟩] } }, .empty⟩
    table.Reachable ∧ command.mapArgv table.expand = replaced ∧
      (execute ⟨"/", table⟩ command s).1 = (execute ⟨"/", .empty⟩ replaced s).1 ∧
      (execute ⟨"/", table⟩ command s).2.recorder.calls
        = (execute ⟨"/", .empty⟩ replaced s).2.recorder.calls := by
  intro table command replaced s
  have reachable : table.Reachable := ⟨_, .inr rfl⟩
  have hreplaced : command.mapArgv table.expand = replaced := by decide +kernel
  obtain ⟨hresult, hcalls, -⟩ := execute_mapArgv reachable "/" command s
  rw [hreplaced] at hresult hcalls
  exact ⟨reachable, hreplaced, hresult, hcalls⟩

end LineShell
