import LineShell.Proofs.Builtin
import LineShell.Proofs.Ending
import LineShell.Proofs.Reading.Vacant

namespace LineShell

/-!
# What becomes of a line

Three parts of the shell look at the text of a line, each by rules of its own: what is for the
shell itself is told by the text before the first blank, `cd` splits what follows into words, and
all other lines are read as commands.  Here their rules are put together.

* `RunAs` — what is said of a line that was read as a command and run.
* `TakenIn` — what is said of any line: its outcome, and what it leaves as it was.
* `evaluate_spec` — it is true of every line.
-/

/-! ### Lines and their text -/

/-- A `cd` is not vacant: its name is two characters that are neither blanks nor quotes. -/
theorem IsCd.not_vacant {text : String} (h : IsCd text) : ¬ Vacant text.toList := by
  rw [h.toList_eq]
  exact Vacant.not_cons rfl (by decide)

/-- A text that asks to leave is not vacant. -/
theorem IsQuit.not_vacant {text : String} (h : IsQuit text) : ¬ Vacant text.toList := by
  rcases h with rfl | rfl <;> exact Vacant.not_cons rfl (by decide)

/-- The text of a vacant line is read as the empty command, also when nothing is left of it. -/
theorem ofLine_of_isEmpty {text : String} (h : text.isEmpty = true) :
    Command.ofLine text = .ok (.exec []) := by
  rw [String.isEmpty_iff.1 h]
  rfl

/-! ### The statement -/

/-- What is said of a command that was run in the shell: the record grows by the calls of the line,
and the outcome is the status that the wait for its one child told, unless the fork of that child or
the wait for it failed. -/
structure RunAs (session : Session) (command : Command) (s : RehearsalStage)
    (outcome : LineOutcome) (s' : RehearsalStage) : Prop where
  calls : s'.recorder.calls
    = s.recorder.calls ++ (traceLine session command s).filterMap (·.entry)
  notRun : ∀ failure, outcome = .notRun failure ↔
    let own := callsOf none (traceLine session command s)
    (∃ e, .fork (.error e) ∈ own ∧ failure = .call .fork e) ∨
      ∃ pid e, (account false own).children = [pid] ∧ .wait pid (.error e) ∈ own ∧
        failure = .call .waitpid e
  finished : ∀ status, outcome = .finished status ↔
    let own := callsOf none (traceLine session command s)
    (account false own).children = [status.pid] ∧ .wait status.pid (.ok status) ∈ own
  one : (∃ failure, outcome = .notRun failure) ∨ ∃ status, outcome = .finished status

/-- What is said of a line that holds a text between its outer blanks: what the outcome is, which
calls were made and where the working directory is then.  The home directory and the aliases are
those of the session, which a line is only shown. -/
structure TakenIn (session : Session) (text : String) (s : RehearsalStage)
    (outcome : LineOutcome) (s' : RehearsalStage) : Prop where
  quit : outcome = .quit ↔ IsQuit text
  directory : (outcome = .handled ∨ ∃ e, outcome = .builtinFailed e) ↔ IsCd text
  rejected : ∀ e, outcome = .rejected e ↔
    ¬ IsQuit text ∧ ¬ IsCd text ∧ Command.ofLine text = .error e
  blank : outcome = .blank ↔ Command.ofLine text = .ok (.exec [])
  /-- A line that is not for the shell itself and that is read as a command to run is run. -/
  run : ∀ command, ¬ IsQuit text → ¬ IsCd text → Command.ofLine text = .ok command →
    command ≠ .exec [] → RunAs session command (System.note (.accepted command) s) outcome s'
  /-- Unless a child was asked for, only the log may grow. -/
  untouched : (∀ status, outcome ≠ .finished status) → (∀ failure, outcome ≠ .notRun failure) →
    ∃ notices, s'.recorder = { s.recorder with notices := s.recorder.notices ++ notices }
  moved : outcome = .handled → ∃ target,
    directoryWanted session.home (cdArguments text) = .ok target ∧
      s.tree.changeDirectory target = .ok s'.tree
  stays : outcome ≠ .handled → s'.tree = s.tree

/-! ### Running -/

/-- Running a command moves no directory of the shell. -/
theorem execute_tree (session : Session) (command : Command) (s : RehearsalStage) :
    (execute session command s).2.tree = s.tree := by
  unfold execute
  split
  · rfl
  · simp only [System.fork, System.note]
    rcases Recorder.fork _ _ with ⟨e | pid, r⟩
    · rfl
    · simp only [awaitLine, System.wait, System.note]
      rcases Recorder.wait _ pid with ⟨e | status, r'⟩
      · rfl
      · rfl

/-- The command of a line that is not empty is run by a child, or the shell hears why not. -/
theorem runAs_execute (session : Session) {command : Command} (named : command ≠ .exec [])
    (s : RehearsalStage) :
    (∃ status s', execute session command s = (.ok (some status), s') ∧
        RunAs session command s (.finished status) s') ∨
      ∃ failure s', execute session command s = (.error failure, s') ∧
        RunAs session command s (.notRun failure) (System.note (.lineFailed failure) s') := by
  have calls := (execute_follows session command s).calls
  have failing := execute_error_iff session command s
  rcases hresult : execute session command s with ⟨result, s'⟩
  rw [hresult] at calls failing
  obtain ⟨_, _, runs⟩ := traceLine_runs session command s
  -- the shell's own calls are known in each of the four ways that an execution can go
  rcases execute_shell session command s with
    ⟨blank, -⟩ | ⟨e, result', shell⟩ | ⟨pid, e, result', shell⟩ | ⟨pid, status, result', shell⟩
  · exact absurd (Command.isEmpty_iff.1 blank) named
  all_goals
    rw [hresult] at result'
    obtain rfl : result = _ := result'
  · refine .inr ⟨_, s', rfl, calls, fun failure => ?_, fun status => ?_, .inl ⟨_, rfl⟩⟩
    · exact Iff.trans (by simp) (failing failure)
    · have own : callsOf none (traceLine session command s)
          = [.note (.executing command), .fork (.error e)] := congrArg (callsOf none) shell
      simp [own]
  · refine .inr ⟨_, s', rfl, calls, fun failure => ?_, fun status => ?_, .inl ⟨_, rfl⟩⟩
    · exact Iff.trans (by simp) (failing failure)
    · simp [shell]
  · -- the status that the wait told is that of the child
    have heard : .wait pid (.ok status) ∈ callsOf none (traceLine session command s) := by
      simp [shell]
    obtain ⟨event, he, -, haction⟩ := mem_callsOf.1 heard
    have hpid : status.pid = pid := runs.pid_of_wait event he pid status haction
    refine .inl ⟨status, s', rfl, calls, fun failure => ?_, fun status' => ?_, .inr ⟨_, rfl⟩⟩
    · exact Iff.trans (by simp) (failing failure)
    · subst hpid
      rw [LineOutcome.finished.injEq, shell]
      constructor
      · rintro rfl
        exact ⟨rfl, by simp⟩
      · rintro ⟨-, hmem⟩
        simp only [List.mem_cons, Action.wait.injEq, Except.ok.injEq, reduceCtorEq, false_or,
          or_false, List.not_mem_nil] at hmem
        exact hmem.2.symm

/-! ### Taking in -/

section TakingIn

variable {session : Session} {text : String}

/-- A text that asks to leave is taken in without a call. -/
theorem takenIn_quit (quit : IsQuit text) (s : RehearsalStage) :
    TakenIn session text s .quit s where
  quit := iff_of_true rfl quit
  directory := by simp [quit.not_isCd]
  rejected := by simp [quit]
  blank := by simpa [ofLine_eq_nil_iff] using quit.not_vacant
  run _ notQuit := absurd quit notQuit
  untouched _ _ := ⟨[], by simp⟩
  moved h := by cases h
  stays _ := rfl

/-- What `cd` does: it enters the directory wanted, or leaves everything but the log as it is. -/
theorem enterDirectory_cases (home : String) (arguments : List Char) (s : RehearsalStage) :
    (∃ target tree, enterDirectory home arguments s
          = (.ok (), ⟨s.recorder.note (.changingDirectory target), tree⟩) ∧
        directoryWanted home arguments = .ok target ∧ s.tree.changeDirectory target = .ok tree) ∨
      ∃ e notices, enterDirectory home arguments s
        = (.error e, ⟨{ s.recorder with notices := s.recorder.notices ++ notices }, s.tree⟩) := by
  unfold enterDirectory
  cases hwanted : directoryWanted home arguments with
  | error e => exact .inr ⟨e, [], by simp⟩
  | ok target =>
    simp only [System.changeDirectory, System.note]
    cases hentered : s.tree.changeDirectory target with
    | error fault => exact .inr ⟨_, [.changingDirectory target], rfl⟩
    | ok tree => exact .inl ⟨target, tree, rfl, rfl, hentered⟩

/-- A `cd`, which leaves all but the log and the working directory as it is. -/
theorem takenIn_directory (cd : IsCd text) {s s' : RehearsalStage} {outcome : LineOutcome}
    (told : outcome = .handled ∨ ∃ e, outcome = .builtinFailed e) (notices : List Notice)
    (kept : s'.recorder = { s.recorder with notices := s.recorder.notices ++ notices })
    (moved : outcome = .handled → ∃ target,
      directoryWanted session.home (cdArguments text) = .ok target ∧
        s.tree.changeDirectory target = .ok s'.tree)
    (stays : outcome ≠ .handled → s'.tree = s.tree) : TakenIn session text s outcome s' := by
  have notQuit : ¬ IsQuit text := fun quit => quit.not_isCd cd
  have named : Command.ofLine text ≠ .ok (.exec []) := mt ofLine_eq_nil_iff.1 cd.not_vacant
  exact
    { quit := by rcases told with rfl | ⟨e, rfl⟩ <;> simp [notQuit]
      directory := iff_of_true told cd
      rejected := by rcases told with rfl | ⟨e, rfl⟩ <;> simp [cd]
      blank := by rcases told with rfl | ⟨e, rfl⟩ <;> simp [named]
      run := fun _ _ notCd => absurd cd notCd
      untouched := fun _ _ => ⟨notices, kept⟩
      moved := moved
      stays := stays }

/-- A `cd` is taken in by the shell itself, without a call that starts or awaits a process. -/
theorem takenIn_cd (cd : IsCd text) (s : RehearsalStage) :
    TakenIn session text s (runBuiltin session (.changeDirectory (cdArguments text)) s).1
      (runBuiltin session (.changeDirectory (cdArguments text)) s).2 := by
  rcases enterDirectory_cases session.home (cdArguments text) s with
    ⟨target, tree, hentered, hwanted, hmoved⟩ | ⟨e, notices, hentered⟩
  · simp only [runBuiltin, hentered]
    exact takenIn_directory cd (.inl rfl) _ rfl (fun _ => ⟨target, hwanted, hmoved⟩)
      fun h => absurd rfl h
  · simp only [runBuiltin, hentered]
    exact takenIn_directory cd (.inr ⟨e, rfl⟩) notices rfl (fun h => by cases h) fun _ => rfl

/-- A line that holds nothing to do. -/
theorem takenIn_blank (blank : Command.ofLine text = .ok (.exec [])) {s s' : RehearsalStage}
    (notices : List Notice)
    (kept : s' = { s with
      recorder := { s.recorder with notices := s.recorder.notices ++ notices } }) :
    TakenIn session text s .blank s' where
  quit := by simpa using fun quit : IsQuit text => quit.not_vacant (ofLine_eq_nil_iff.1 blank)
  directory := by simpa using fun cd : IsCd text => cd.not_vacant (ofLine_eq_nil_iff.1 blank)
  rejected := by simp [blank]
  blank := by simp [blank]
  run command _ _ hread named := absurd (Except.ok.inj (hread.symm.trans blank)) named
  untouched _ _ := ⟨notices, by rw [kept]⟩
  moved h := by cases h
  stays _ := by rw [kept]

/-- A line whose command was run. -/
theorem takenIn_run (quit : ¬ IsQuit text) (cd : ¬ IsCd text) {command : Command}
    (hread : Command.ofLine text = .ok command) (named : command ≠ .exec [])
    {s s' : RehearsalStage} {outcome : LineOutcome}
    (ran : RunAs session command (System.note (.accepted command) s) outcome s')
    (tree : s'.tree = s.tree) : TakenIn session text s outcome s' := by
  rcases ran.one with ⟨failure, rfl⟩ | ⟨status, rfl⟩
  all_goals exact
    { quit := by simp [quit]
      directory := by simp [cd]
      rejected := by simp [hread]
      blank := by simp [hread, named]
      run := fun command' _ _ h _ => Except.ok.inj (hread.symm.trans h) ▸ ran
      untouched := fun notFinished notNotRun => by simp at notFinished notNotRun
      moved := fun h => by cases h
      stays := fun _ => tree }

/-- Every other text is rejected, passed over or run as a command. -/
theorem takenIn_command (quit : ¬ IsQuit text) (cd : ¬ IsCd text) (s : RehearsalStage) :
    TakenIn session text s (runCommandLine session text s).1 (runCommandLine session text s).2 := by
  unfold runCommandLine
  cases hread : Command.ofLine text with
  | error e =>
    exact
      { quit := by simp [quit]
        directory := by simp [cd]
        rejected := by simp [quit, cd, hread]
        blank := by simp [hread]
        run := fun command _ _ h => by rw [hread] at h; cases h
        untouched := fun _ _ => ⟨_, rfl⟩
        moved := fun h => by cases h
        stays := fun _ => rfl }
  | ok command =>
    by_cases named : command = .exec []
    · subst named
      -- the reader accepts the empty command, and only then it is passed over
      refine takenIn_blank hread [.accepted (.exec []), .blankCommand] ?_
      simp [execute, System.note, Recorder.note]
    · have tree := execute_tree session command (System.note (.accepted command) s)
      rcases runAs_execute session named (System.note (.accepted command) s) with
        ⟨status, s', hresult, ran⟩ | ⟨failure, s', hresult, ran⟩
      all_goals
        rw [hresult] at tree
        simp only [hresult]
        exact takenIn_run quit cd hread named ran tree

end TakingIn

/-- **What becomes of a line.** The text of a line settles what becomes of it, whatever the session,
the world and the working directory: it asks the shell to leave or to change its directory, or it is
rejected, or it holds nothing to do, which is so for blanks and quotes that are closed at once and
for nothing else, or its command is run.  Only the last makes a call, and only a `cd` that succeeds
moves the working directory. -/
theorem evaluate_spec (session : Session) (line : String) (s : RehearsalStage) :
    TakenIn session (trimBlanks line) s (evaluate session line s).1 (evaluate session line s).2 ∧
      (Command.ofLine (trimBlanks line) = .ok (.exec []) ↔ Vacant (trimBlanks line).toList) := by
  refine ⟨?_, ofLine_eq_nil_iff⟩
  by_cases quit : IsQuit (trimBlanks line)
  · rw [evaluate_of_isQuit quit]
    exact takenIn_quit quit s
  by_cases cd : IsCd (trimBlanks line)
  · rw [evaluate_of_isCd cd]
    exact takenIn_cd cd s
  rw [evaluate_of_command cd quit]
  split
  case isTrue empty => exact takenIn_blank (ofLine_of_isEmpty empty) [] (by simp)
  case isFalse => exact takenIn_command quit cd s

end LineShell
