import LineShell.Proofs.Builtin
import LineShell.Shell
import Mathlib.Logic.Relation

namespace LineShell

/-!
# Consoles that are fed with lines

What a shell run sees of its console is a list of lines and a working directory.  The processes that
it starts may do what they like, as long as they leave these two alone.

* `View` — the lines still to come and the working directory of a system.
* `View.Fed` — a console that hands out its lines in order, until they end.
* `Quiet` — what is done without reading a line, starting a process or moving anywhere.
* `evaluate_eq_quit_iff`, `evaluate_eq_handled_iff` — when a line asks to leave, and when it moves
  the working directory, on any system.
* `View.Fed.evaluate_keeps` — what a line that is taken in leaves as it was.
-/

variable {σ δ : Type}

/-! ### Views -/

/-- What a run of the shell depends on in a system. -/
structure View (σ δ : Type) where
  /-- The lines that the input still holds. -/
  lines : σ → List String
  /-- The working directory of the shell. -/
  directory : σ → δ

/-- Neither a line is gone nor the working directory moved. -/
structure View.Keeps (v : View σ δ) (s s' : σ) : Prop where
  lines : v.lines s' = v.lines s
  directory : v.directory s' = v.directory s

namespace View.Keeps

variable {v : View σ δ} {s₁ s₂ s₃ : σ}

protected theorem refl (v : View σ δ) (s : σ) : v.Keeps s s :=
  ⟨rfl, rfl⟩

protected theorem trans (h : v.Keeps s₁ s₂) (h' : v.Keeps s₂ s₃) : v.Keeps s₁ s₃ :=
  ⟨h'.lines.trans h.lines, h'.directory.trans h.directory⟩

end View.Keeps

/-- A console that hands out the lines of its input in order and then says that they have ended,
and that can write out what its output holds back.  Nothing but reading takes a line away, and
nothing but a successful change of directory moves the shell. -/
structure View.Fed [Console σ] (v : View σ δ) : Prop where
  line : ∀ prompt s line rest, v.lines s = line :: rest →
    (Console.readLine prompt s).1 = .line line ∧ v.lines (Console.readLine prompt s).2 = rest
  ended : ∀ prompt s, v.lines s = [] → (Console.readLine prompt s).1 = .ended
  reading : ∀ prompt s, v.directory (Console.readLine prompt s).2 = v.directory s
  flushed : ∀ s : σ, (Console.flush s).1 = .ok ()
  flush : ∀ s, v.Keeps s (Console.flush s).2
  print : ∀ text s, v.Keeps s (Console.print text s)
  printError : ∀ text s, v.Keeps s (Console.printError text s)
  note : ∀ notice s, v.Keeps s (System.note notice s)
  fork : ∀ process s, v.Keeps s (System.fork process s).2
  wait : ∀ pid s, v.Keeps s (System.wait pid s).2
  moving : ∀ path s, v.lines (System.changeDirectory path s).2 = v.lines s
  refused : ∀ path s fault, (System.changeDirectory path s).1 = .error fault →
    v.directory (System.changeDirectory path s).2 = v.directory s

/-! ### Quiet steps -/

/-- A step in which the shell only writes. -/
inductive QuietStep [Console σ] : σ → σ → Prop where
  | note (notice : Notice) (s : σ) : QuietStep s (System.note notice s)
  | print (text : String) (s : σ) : QuietStep s (Console.print text s)
  | printError (text : String) (s : σ) : QuietStep s (Console.printError text s)
  | flush (s : σ) : QuietStep s (Console.flush s).2

/-- Any number of quiet steps. -/
def Quiet [Console σ] : σ → σ → Prop :=
  Relation.ReflTransGen QuietStep

section Quiet

variable [Console σ]

theorem QuietStep.quiet {s s' : σ} (h : QuietStep s s') : Quiet s s' :=
  .single h

/-- No quiet steps take a line or move the shell. -/
theorem View.Fed.keeps_of_quiet {v : View σ δ} (fed : v.Fed) {s s' : σ} (h : Quiet s s') :
    v.Keeps s s' := by
  induction h with
  | refl => exact .refl v s
  | tail _ step ih =>
    refine ih.trans ?_
    cases step with
    | note notice => exact fed.note notice _
    | print text => exact fed.print text _
    | printError text => exact fed.printError text _
    | flush => exact fed.flush _

namespace Shell

variable (shell : Shell)

/-- Making the prompt is quiet: at most it is noted that there is no working directory. -/
theorem quiet_prompt (s : σ) : Quiet s (shell.prompt s).2 := by
  rw [prompt, showDirectory]
  cases HasDirectory.currentDirectory? s with
  | some current => exact .refl
  | none => exact (QuietStep.note _ s).quiet

/-- Telling the user of an error is quiet. -/
theorem quiet_reportError (message : String) (s : σ) : Quiet s (shell.reportError message s) :=
  (QuietStep.printError _ s).quiet

/-- Telling what became of a line is quiet. -/
theorem quiet_reportOutcome (outcome : LineOutcome) (s : σ) :
    Quiet s (shell.reportOutcome outcome s) := by
  cases outcome with
  | blank | handled | quit => exact .refl
  | builtinFailed e => exact shell.quiet_reportError ..
  | rejected e => exact shell.quiet_reportError ..
  | notRun failure => exact shell.quiet_reportError ..
  | finished status =>
    rw [reportOutcome]
    split
    · exact .refl
    · exact shell.quiet_reportError ..

theorem quiet_noteAll (notices : List Notice) (s : σ) : Quiet s (noteAll notices s) := by
  induction notices generalizing s with
  | nil => exact .refl
  | cons notice rest ih => exact (QuietStep.note notice s).quiet.trans (ih _)

/-- Loading the history is quiet, whatever the file holds. -/
theorem quiet_loadHistory (s : σ) : Quiet s (shell.loadHistory s).2 := by
  rw [loadHistory]
  split
  · exact (QuietStep.note _ s).quiet
  · split
    · exact (QuietStep.note _ s).quiet
    · exact (quiet_noteAll _ s).tail (.note _ _)

/-- All that comes before the first line is quiet. -/
theorem quiet_start (s : σ) : Quiet s (shell.start s).2 := by
  have begun : Quiet s (System.note .interruptsHandled (System.note .starting s)) :=
    (QuietStep.note _ s).quiet.tail (.note _ _)
  exact ((begun.trans (shell.quiet_loadHistory _)).tail (.print _ _)).tail (.note _ _)

end Shell

end Quiet

/-! ### Lines that ask to leave or to move -/

section Outcome

variable [System σ] (session : Session)

/-- No command makes the shell leave. -/
theorem runCommandLine_ne_quit (line : String) (s : σ) :
    (runCommandLine session line s).1 ≠ .quit := by
  rw [runCommandLine]
  split
  · simp
  · split <;> simp

/-- No command is handled by the shell itself. -/
theorem runCommandLine_ne_handled (line : String) (s : σ) :
    (runCommandLine session line s).1 ≠ .handled := by
  rw [runCommandLine]
  split
  · simp
  · split <;> simp

/-- A line asks to leave by its text alone. -/
theorem evaluate_eq_quit_iff (line : String) (s : σ) :
    (evaluate session line s).1 = .quit ↔ IsQuit (trimBlanks line) := by
  by_cases quit : IsQuit (trimBlanks line)
  · simp [evaluate_of_isQuit quit, quit]
  by_cases cd : IsCd (trimBlanks line)
  · rw [evaluate_of_isCd cd, runBuiltin]
    split <;> simp [quit]
  · rw [evaluate_of_command cd quit]
    split
    · simp [quit]
    · simp [quit, runCommandLine_ne_quit]

/-- The line is a `cd` whose directory could be entered, with the system as it is then. -/
def Entered (line : String) (s s' : σ) : Prop :=
  IsCd (trimBlanks line) ∧ ∃ target,
    directoryWanted session.home (cdArguments (trimBlanks line)) = .ok target ∧
      System.changeDirectory target (System.note (.changingDirectory target) s) = (.ok (), s')

/-- Only a `cd` that succeeds is a line that the shell has handled itself. -/
theorem evaluate_eq_handled_iff (line : String) (s : σ) :
    (evaluate session line s).1 = .handled ↔
      Entered session line s (evaluate session line s).2 := by
  by_cases cd : IsCd (trimBlanks line)
  · rw [evaluate_of_isCd cd, runBuiltin]
    simp only [Entered, cd, true_and, enterDirectory]
    cases hwanted : directoryWanted session.home (cdArguments (trimBlanks line)) with
    | error e => simp
    | ok target =>
      rcases hmoved : System.changeDirectory target (System.note (.changingDirectory target) s)
        with ⟨fault | _, s'⟩ <;> simp [hmoved]
  · refine iff_of_false (fun handled => ?_) fun entered => cd entered.1
    by_cases quit : IsQuit (trimBlanks line)
    · simp [evaluate_of_isQuit quit] at handled
    · rw [evaluate_of_command cd quit] at handled
      split at handled
      · cases handled
      · exact runCommandLine_ne_handled session _ s handled

end Outcome

/-! ### What a line leaves as it was -/

namespace View.Fed

variable [Console σ] {v : View σ δ} (session : Session)
include v

/-- Waiting for the process of a line takes no line and moves nobody. -/
theorem keeps_awaitLine (fed : v.Fed) (pid : Pid) (s : σ) : v.Keeps s (awaitLine pid s).2 := by
  have waited := fed.wait pid s
  rw [awaitLine]
  generalize System.wait pid s = result at waited ⊢
  rcases result with ⟨e | status, s'⟩
  · exact waited
  · exact waited.trans (fed.note _ _)

/-- Running a command takes no line and moves nobody. -/
theorem keeps_execute (fed : v.Fed) (command : Command) (s : σ) :
    v.Keeps s (execute session command s).2 := by
  rw [execute]
  split
  · exact fed.note _ s
  · have forked := (fed.note (.executing command) s).trans
      (fed.fork (command.process session.aliases) _)
    generalize System.fork (command.process session.aliases)
      (System.note (.executing command) s) = result at forked ⊢
    rcases result with ⟨e | pid, s'⟩
    · exact forked
    · exact (forked.trans (fed.note _ _)).trans (fed.keeps_awaitLine pid _)

/-- Taking a line in as a command takes none of the others and moves nobody. -/
theorem keeps_runCommandLine (fed : v.Fed) (line : String) (s : σ) :
    v.Keeps s (runCommandLine session line s).2 := by
  rw [runCommandLine]
  cases Command.ofLine line with
  | error e => exact fed.note _ s
  | ok command =>
    have ran := (fed.note (.accepted command) s).trans (fed.keeps_execute session command _)
    dsimp only
    generalize execute session command (System.note (.accepted command) s) = result at ran ⊢
    rcases result with ⟨failure | _ | status, s'⟩
    · exact ran.trans (fed.note _ _)
    · exact ran
    · exact ran

/-- No line takes the ones behind it away, and only a `cd` that succeeds moves the working
directory. -/
theorem evaluate_keeps (fed : v.Fed) (line : String) (s : σ) :
    v.lines (evaluate session line s).2 = v.lines s ∧
      ((evaluate session line s).1 ≠ .handled →
        v.directory (evaluate session line s).2 = v.directory s) := by
  by_cases quit : IsQuit (trimBlanks line)
  · rw [evaluate_of_isQuit quit]
    exact ⟨rfl, fun _ => rfl⟩
  by_cases cd : IsCd (trimBlanks line)
  · rw [evaluate_of_isCd cd, runBuiltin, enterDirectory]
    cases directoryWanted session.home (cdArguments (trimBlanks line)) with
    | error e => exact ⟨rfl, fun _ => rfl⟩
    | ok target =>
      -- only the change of directory itself can move the shell, and a refused one does not
      have noted := fed.note (.changingDirectory target) s
      have lines := fed.moving target (System.note (.changingDirectory target) s)
      have refused := fed.refused target (System.note (.changingDirectory target) s)
      dsimp only
      generalize System.changeDirectory target
        (System.note (.changingDirectory target) s) = result at lines refused ⊢
      rcases result with ⟨fault | _, s'⟩
      · exact ⟨lines.trans noted.lines, fun _ => (refused fault rfl).trans noted.directory⟩
      · exact ⟨lines.trans noted.lines, fun handled => absurd rfl handled⟩
  · rw [evaluate_of_command cd quit]
    split
    · exact ⟨rfl, fun _ => rfl⟩
    · have ran := fed.keeps_runCommandLine session (trimBlanks line) s
      exact ⟨ran.lines, fun _ => ran.directory⟩

end View.Fed

end LineShell
