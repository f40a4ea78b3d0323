import LineShell.Proofs.Session.Feed
import LineShell.Rehearsal.Stage

namespace LineShell

/-!
# A run takes in line after line

A run of the shell goes on whatever becomes of its lines: only a line that asks to leave, or the end
of the input, makes it say goodbye.

* `Visit` — a line taken in, with the history and the system at that time.
* `Progress` — how a run comes from one line to the next.
* `linesTaken` — the lines of an input that a run takes in.
* `View.Fed.loop_progress` — the loop takes in these lines.
* `View.Fed.directory_before` — where the shell is when a line is taken in.
* `HistorySaved` — what becomes of the history behind the last line.
* `run_takes_lines` — all together, for a whole run and how it ends.
* `Dialogue` — a console that is fed with lines and keeps files.
-/

variable {σ δ : Type}

/-! ### Progress -/

/-- A line that was taken in. -/
structure Visit (σ : Type) where
  line : String
  /-- The history that the line was taken in with. -/
  history : History
  /-- The system that the line was evaluated on. -/
  before : σ
  outcome : LineOutcome
  /-- The system that the line left behind. -/
  after : σ

/-- What happens from one history and system to another, with the lines taken in on the way.  A
line is offered to the history and then evaluated; apart from that only quiet steps are made and
lines are read. -/
inductive Progress [Console σ] (shell : Shell) :
    History → σ → List (Visit σ) → History → σ → Prop where
  | stop (history : History) (s : σ) : Progress shell history s [] history s
  | quiet {history history' : History} {s s₁ s' : σ} {visits : List (Visit σ)} :
      QuietStep s s₁ → Progress shell history s₁ visits history' s' →
      Progress shell history s visits history' s'
  | read {history history' : History} {s s' : σ} {visits : List (Visit σ)} (prompt : String) :
      Progress shell history (Console.readLine prompt s).2 visits history' s' →
      Progress shell history s visits history' s'
  | visit {history history' : History} {s s₁ s' : σ} {visits : List (Visit σ)} {line : String}
      {outcome : LineOutcome} :
      evaluate shell.session line s = (outcome, s₁) →
      Progress shell (history.add line) s₁ visits history' s' →
      Progress shell history s (⟨line, history.add line, s, outcome, s₁⟩ :: visits) history' s'

section Progress

variable [Console σ] {shell : Shell} {history history' : History} {s s₁ s' : σ}
  {visits : List (Visit σ)}

/-- Quiet steps may come before any progress. -/
theorem Progress.of_quiet (h : Quiet s s₁)
    (progress : Progress shell history s₁ visits history' s') :
    Progress shell history s visits history' s' := by
  induction h using Relation.ReflTransGen.head_induction_on with
  | refl => exact progress
  | head step _ ih => exact .quiet step ih

/-- What became of a visited line is what evaluating it gives. -/
theorem Progress.evaluated (progress : Progress shell history s visits history' s') :
    ∀ visit ∈ visits,
      evaluate shell.session visit.line visit.before = (visit.outcome, visit.after) := by
  induction progress with
  | stop => simp
  | quiet _ _ ih => exact ih
  | read _ _ ih => exact ih
  | visit hline _ ih =>
    intro visit hvisit
    rcases List.mem_cons.1 hvisit with rfl | hlater
    · exact hline
    · exact ih visit hlater

/-- The history at the end holds the visited lines, added one after the other. -/
theorem Progress.history_eq (progress : Progress shell history s visits history' s') :
    history' = (visits.map (·.line)).foldl History.add history := by
  induction progress with
  | stop => rfl
  | quiet _ _ ih => exact ih
  | read _ _ ih => exact ih
  | visit _ _ ih => exact ih

end Progress

/-! ### The lines of an input -/

instance (text : String) : Decidable (IsQuit text) :=
  inferInstanceAs (Decidable (_ ∨ _))

/-- Texts up to the first that asks to leave, which is still among them. -/
def upToQuit : List String → List String
  | [] => []
  | text :: rest => if IsQuit text then [text] else text :: upToQuit rest

/-- The lines that a run takes in, without the blanks at their ends: those that hold more than
blanks, up to the one that asks to leave. -/
def linesTaken (lines : List String) : List String :=
  upToQuit ((lines.map trimBlanks).filter fun text => !text.isEmpty)

section Lines

variable {line : String} {lines : List String}

/-- A blank line is not taken in. -/
theorem linesTaken_blank (blank : (trimBlanks line).isEmpty = true) :
    linesTaken (line :: lines) = linesTaken lines := by
  simp [linesTaken, blank]

/-- A line that asks to leave is the last one. -/
theorem linesTaken_quit (quit : IsQuit (trimBlanks line)) :
    linesTaken (line :: lines) = [trimBlanks line] := by
  simp [linesTaken, quit.ne_empty, upToQuit, quit]

/-- Any other line is taken in, and those behind it as well. -/
theorem linesTaken_cons (named : (trimBlanks line).isEmpty = false)
    (quit : ¬ IsQuit (trimBlanks line)) :
    linesTaken (line :: lines) = trimBlanks line :: linesTaken lines := by
  simp [linesTaken, named, upToQuit, quit]

end Lines

/-! ### The loop -/

section Loop

variable [Console σ] {v : View σ δ} {shell : Shell} {history : History} {s : σ} {line : String}

namespace Shell

/-- The system once a prompt was shown and answered. -/
def answered (shell : Shell) (s : σ) : σ :=
  (Console.readLine (shell.prompt (Console.flush s).2).1 (shell.prompt (Console.flush s).2).2).2

/-- Showing a prompt is quiet. -/
theorem quiet_prompted (shell : Shell) (s : σ) : Quiet s (shell.prompt (Console.flush s).2).2 :=
  (QuietStep.flush s).quiet.trans (shell.quiet_prompt _)

/-- A blank line is passed over, and not even the history is shown it. -/
theorem handle_blank (blank : (trimBlanks line).isEmpty = true) :
    shell.handle line history s = (.ok .goOn, history, s) := by
  simp [handle, blank]

end Shell

namespace View.Fed

variable {outcome : LineOutcome} {s₁ : σ}

/-- A line that asks to leave goes into the history and makes the shell leave. -/
theorem handle_quit (fed : v.Fed) (quit : IsQuit (trimBlanks line))
    (hline : evaluate shell.session (trimBlanks line) (Console.flush s).2 = (outcome, s₁)) :
    shell.handle line history s = (.ok .leave, history.add (trimBlanks line), s₁) := by
  have flushed := fed.flushed s
  have told : outcome = .quit := by
    have := (evaluate_eq_quit_iff shell.session (trimBlanks line) (Console.flush s).2).2
      (by rwa [trimBlanks_trimBlanks])
    rwa [hline] at this
  rw [Shell.handle]
  simp only [quit.ne_empty, Bool.false_eq_true, if_false]
  generalize Console.flush s = result at flushed hline ⊢
  rcases result with ⟨e | _, s₀⟩
  · cases flushed
  · simp only [hline, told, if_true]

/-- Any other line goes into the history, what became of it is told, and the shell goes on. -/
theorem handle_line (fed : v.Fed) (named : (trimBlanks line).isEmpty = false)
    (quit : ¬ IsQuit (trimBlanks line))
    (hline : evaluate shell.session (trimBlanks line) (Console.flush s).2 = (outcome, s₁)) :
    shell.handle line history s
      = (.ok .goOn, history.add (trimBlanks line), shell.reportOutcome outcome s₁) := by
  have flushed := fed.flushed s
  have told : outcome ≠ .quit := by
    have := mt (evaluate_eq_quit_iff shell.session (trimBlanks line) (Console.flush s).2).1
      (by rwa [trimBlanks_trimBlanks])
    rwa [hline] at this
  rw [Shell.handle]
  simp only [named, Bool.false_eq_true, if_false]
  generalize Console.flush s = result at flushed hline ⊢
  rcases result with ⟨e | _, s₀⟩
  · cases flushed
  · simp only [hline, told, if_false]

/-- At the end of the input the loop ends with the history that it has. -/
theorem loop_ended (fed : v.Fed) (none : v.lines s = []) (fuel : Nat) :
    shell.loop (fuel + 1) history s
      = (.ok history, Console.print "\n" (System.note .inputEnded (shell.answered s))) := by
  have flushed := fed.flushed s
  have ended := fed.ended (shell.prompt (Console.flush s).2).1 (shell.prompt (Console.flush s).2).2
    ((fed.keeps_of_quiet (shell.quiet_prompted s)).lines.trans none)
  rw [Shell.loop, Shell.answered]
  generalize Console.flush s = result at flushed ended ⊢
  rcases result with ⟨e | _, s₁⟩
  · cases flushed
  · dsimp only at ended ⊢
    generalize Console.readLine (shell.prompt s₁).1 (shell.prompt s₁).2 = read at ended ⊢
    rcases read with ⟨answer, s₂⟩
    obtain rfl : answer = .ended := ended
    rfl

/-- A line is handled, and then the loop is left or goes on with what that has made of the history
and of the system. -/
theorem loop_line (fed : v.Fed) {rest : List String} (next : v.lines s = line :: rest)
    {flow : Shell.Flow} {history' : History}
    (handled : shell.handle line history (shell.answered s) = (.ok flow, history', s₁))
    (fuel : Nat) :
    shell.loop (fuel + 1) history s
      = if flow = .leave then (.ok history', System.note .quitting s₁)
        else shell.loop fuel history' s₁ := by
  have flushed := fed.flushed s
  have delivered := fed.line (shell.prompt (Console.flush s).2).1
    (shell.prompt (Console.flush s).2).2 line rest
    ((fed.keeps_of_quiet (shell.quiet_prompted s)).lines.trans next)
  rw [Shell.answered] at handled
  rw [Shell.loop]
  generalize Console.flush s = result at flushed delivered handled ⊢
  rcases result with ⟨e | _, s₀⟩
  · cases flushed
  · dsimp only at delivered handled ⊢
    generalize Console.readLine (shell.prompt s₀).1 (shell.prompt s₀).2 = read
      at delivered handled ⊢
    rcases read with ⟨answer, s₂⟩
    obtain rfl : answer = .line line := delivered.1
    dsimp only at handled ⊢
    rw [handled]
    cases flow <;> rfl

/-- The line that was read is gone, and the others are still to come. -/
theorem lines_answered (fed : v.Fed) {rest : List String} (next : v.lines s = line :: rest) :
    v.lines (shell.answered s) = rest :=
  (fed.line _ _ line rest ((fed.keeps_of_quiet (shell.quiet_prompted s)).lines.trans next)).2

end View.Fed

/-- A prompt and the line behind it may come before any progress. -/
theorem Progress.of_answered {history' : History} {s' : σ} {visits : List (Visit σ)}
    (progress : Progress shell history (shell.answered s) visits history' s') :
    Progress shell history s visits history' s' :=
  .of_quiet (shell.quiet_prompted s) (.read _ progress)

/-- The loop takes in the lines of the input, whatever becomes of them. -/
theorem View.Fed.loop_progress (fed : v.Fed) (shell : Shell) {lines : List String} {fuel : Nat}
    (enough : lines.length < fuel) (history : History) {s : σ} (input : v.lines s = lines) :
    ∃ visits history' last, Progress shell history s visits history' last ∧
      visits.map (·.line) = linesTaken lines ∧
      shell.loop fuel history s = (.ok history', last) := by
  induction lines generalizing fuel history s with
  | nil =>
    obtain ⟨fuel, rfl⟩ := Nat.exists_eq_add_one.2 (Nat.zero_lt_of_lt enough)
    refine ⟨[], history, _, ?_, rfl, fed.loop_ended input fuel⟩
    exact .of_answered (.quiet (.note _ _) (.quiet (.print _ _) (.stop ..)))
  | cons line rest ih =>
    obtain ⟨fuel, rfl⟩ := Nat.exists_eq_add_one.2 (Nat.zero_lt_of_lt enough)
    have enough' : rest.length < fuel := by simpa using enough
    have input' : v.lines (shell.answered s) = rest := fed.lines_answered input
    by_cases blank : (trimBlanks line).isEmpty = true
    · -- a blank line is passed over
      rw [fed.loop_line input (Shell.handle_blank blank), if_neg (by decide)]
      obtain ⟨visits, history', last, progress, hlines, hloop⟩ :=
        ih enough' history input'
      exact ⟨visits, history', last, progress.of_answered, by rw [hlines, linesTaken_blank blank],
        hloop⟩
    have named : (trimBlanks line).isEmpty = false := by simpa using blank
    rcases hline : evaluate shell.session (trimBlanks line) (Console.flush (shell.answered s)).2
      with ⟨outcome, s₁⟩
    by_cases quit : IsQuit (trimBlanks line)
    · -- the shell leaves, and the lines behind are not even read
      rw [fed.loop_line input (fed.handle_quit quit hline), if_pos rfl]
      have progress : Progress shell history s _ _ (System.note .quitting s₁) :=
        .of_answered (.quiet (.flush _) (.visit hline (.quiet (.note _ _) (.stop ..))))
      exact ⟨_, _, _, progress, (linesTaken_quit quit).symm, rfl⟩
    · -- whatever the line comes to, it is told and the loop goes on
      rw [fed.loop_line input (fed.handle_line named quit hline), if_neg (by decide)]
      have told := shell.quiet_reportOutcome outcome s₁
      have kept := (fed.evaluate_keeps shell.session (trimBlanks line)
        (Console.flush (shell.answered s)).2).1
      rw [hline] at kept
      have input'' := (fed.keeps_of_quiet told).lines.trans
        (kept.trans ((fed.flush _).lines.trans input'))
      obtain ⟨visits, history', last, progress, hlines, hloop⟩ :=
        ih enough' (history.add (trimBlanks line)) input''
      refine ⟨_, history', last,
        .of_answered (.quiet (.flush _) (.visit hline (.of_quiet told progress))), ?_, hloop⟩
      rw [List.map_cons, hlines, linesTaken_cons named quit]

end Loop

/-! ### The working directory -/

/-- The working directory that some visits leave: the one that the last successful `cd` among them
has entered, or else the one before them. -/
def View.directoryLeft (v : View σ δ) (start : δ) (visits : List (Visit σ)) : δ :=
  (((visits.filter (·.outcome = .handled)).getLast?).map (v.directory ·.after)).getD start

section Directory

variable {v : View σ δ} {start : δ}

@[simp]
theorem View.directoryLeft_nil : v.directoryLeft start [] = start := rfl

/-- A first visit counts only if it was a successful `cd`, and then only until the next one. -/
theorem View.directoryLeft_cons (visit : Visit σ) (later : List (Visit σ)) :
    v.directoryLeft start (visit :: later)
      = v.directoryLeft (if visit.outcome = .handled then v.directory visit.after else start)
          later := by
  by_cases handled : visit.outcome = .handled
  · cases hlater : (later.filter (·.outcome = .handled)).getLast? <;>
      simp [directoryLeft, handled, List.getLast?_cons, hlater]
  · simp [directoryLeft, handled]

variable [Console σ] {shell : Shell} {history history' : History} {s s' : σ}
  {visits : List (Visit σ)}

/-- A line is taken in where the last successful `cd` before it has led. -/
theorem View.Fed.directory_before (fed : v.Fed)
    (progress : Progress shell history s visits history' s') {earlier later : List (Visit σ)}
    {visit : Visit σ} (split : visits = earlier ++ visit :: later) :
    v.directory visit.before = v.directoryLeft (v.directory s) earlier := by
  induction progress generalizing earlier with
  | stop => simp at split
  | quiet step _ ih => rw [ih split, (fed.keeps_of_quiet step.quiet).directory]
  | read prompt _ ih => rw [ih split, fed.reading]
  | @visit _ _ s₀ _ _ _ line₀ _ hline _ ih =>
    cases earlier with
    | nil =>
      obtain ⟨rfl, rfl⟩ := List.cons.inj split
      rfl
    | cons first earlier =>
      obtain ⟨rfl, hrest⟩ := List.cons.inj split
      rw [ih hrest, directoryLeft_cons]
      split
      · rfl
      next stays =>
        have kept := (fed.evaluate_keeps shell.session line₀ s₀).2
        rw [hline] at kept
        rw [kept stays]

end Directory

/-! ### Saving the history -/

/-- What saving a history in a file does to a system: when no line was added there is nothing to be
written, else the whole history is written once, and what came of that is noted. -/
inductive HistorySaved [Console σ] (file : String) (history : History) (s : σ) : σ → Prop where
  | unchanged (kept : history.grown = false) :
      HistorySaved file history s (System.note .historySaved s)
  | written {s' : σ} (grown : history.grown = true)
      (write : Console.writeFile file history.encode.toUTF8.toList s = (.ok (), s')) :
      HistorySaved file history s (System.note .historySaved s')
  | refused {s' : σ} {e : Errno} (grown : history.grown = true)
      (write : Console.writeFile file history.encode.toUTF8.toList s = (.error e, s')) :
      HistorySaved file history s (System.note (.historyUnsaved e.systemMessage) s')

/-- The shell saves its history in its own file. -/
theorem Shell.saveHistory_saved [Console σ] (shell : Shell) (history : History) (s : σ) :
    HistorySaved shell.historyFile history s (shell.saveHistory history s) := by
  rw [saveHistory]
  cases grown : history.grown with
  | false => exact .unchanged grown
  | true =>
    rcases write : Console.writeFile shell.historyFile history.encode.toUTF8.toList s
      with ⟨e | _, s'⟩
    · exact .refused grown write
    · exact .written grown write

/-! ### Whole runs -/

/-- **A run takes in line after line.** On a console that is fed with lines, a run takes in the
lines that hold more than blanks, up to the one that asks to leave, in order and whatever becomes of
each; every one is offered to the history before it is evaluated, and evaluated in the directory
that the last successful `cd` before it has entered.  Then the history, which is the one of the
start with these lines added, is saved, the farewell is said and the run ends well. -/
theorem run_takes_lines [Console σ] {v : View σ δ} (fed : v.Fed) (shell : Shell) (s : σ)
    (fuel : Nat) (enough : (v.lines s).length < fuel) :
    ∃ visits history last saved,
      Progress shell (shell.start s).1 (shell.start s).2 visits history last ∧
      visits.map (·.line) = linesTaken (v.lines s) ∧
      history = (linesTaken (v.lines s)).foldl History.add (shell.start s).1 ∧
      (∀ earlier visit later, visits = earlier ++ visit :: later →
        v.directory visit.before = v.directoryLeft (v.directory s) earlier) ∧
      (∀ visit ∈ visits,
        visit.outcome = .handled ↔ Entered shell.session visit.line visit.before visit.after) ∧
      HistorySaved shell.historyFile history last saved ∧
      shell.run fuel s
        = (.ok (), System.note .leaving
            (Console.print (shell.theme.farewellText shell.colours ++ "\n") saved)) ∧
      Shell.exitCode (shell.run fuel s).1 = 0 := by
  have started := fed.keeps_of_quiet (shell.quiet_start s)
  obtain ⟨visits, history, last, progress, hlines, hloop⟩ :=
    fed.loop_progress shell enough (shell.start s).1 started.lines
  have hrun : shell.run fuel s = (.ok (), shell.finish history last) := by
    simp only [Shell.run, hloop]
  refine ⟨visits, history, last, shell.saveHistory history last, progress, hlines,
    hlines ▸ progress.history_eq, fun earlier visit later split => ?_, fun visit hvisit => ?_,
    shell.saveHistory_saved history last, hrun, by rw [hrun]; rfl⟩
  · rw [fed.directory_before progress split, started.directory]
  · have handled := evaluate_eq_handled_iff shell.session visit.line visit.before
    rwa [progress.evaluated visit hvisit] at handled

/-! ### A console of lines -/

/-- A rehearsal stage with an input, an output and files, the latest one of a name first. -/
structure Dialogue where
  stage : RehearsalStage
  input : List String
  output : List String := []
  files : List (String × Bytes) := []

namespace Dialogue

instance : System Dialogue where
  fork process s := ((System.fork process s.stage).1,
    { s with stage := (System.fork process s.stage).2 })
  wait pid s := ((System.wait pid s.stage).1, { s with stage := (System.wait pid s.stage).2 })
  changeDirectory path s := ((System.changeDirectory path s.stage).1,
    { s with stage := (System.changeDirectory path s.stage).2 })
  note notice s := { s with stage := System.note notice s.stage }

instance : HasDirectory Dialogue where
  currentDirectory? s := HasDirectory.currentDirectory? s.stage

instance : Console Dialogue where
  readLine prompt s :=
    match s.input with
    | [] => (.ended, { s with output := s.output ++ [prompt] })
    | line :: rest => (.line line, { s with input := rest, output := s.output ++ [prompt] })
  print text s := { s with output := s.output ++ [text] }
  printError text s := { s with output := s.output ++ [text] }
  flush s := (.ok (), s)
  readFile path s :=
    match s.files.lookup path with
    | some bytes => .ok bytes
    | none => .error .enoent
  writeFile path bytes s := (.ok (), { s with files := (path, bytes) :: s.files })
  identity _ := ("user", "host")

/-- The lines that a dialogue still holds, and the directory of its stage. -/
def view : View Dialogue NodeId where
  lines s := s.input
  directory s := s.stage.tree.current

/-- A dialogue is fed with the lines that it holds. -/
theorem view_fed : view.Fed where
  line prompt s line rest next := by
    change s.input = line :: rest at next
    simp [Console.readLine, next, view]
  ended prompt s none := by
    change s.input = [] at none
    simp [Console.readLine, none]
  reading prompt s := by
    simp only [Console.readLine, view]
    split <;> rfl
  flushed _ := rfl
  flush _ := ⟨rfl, rfl⟩
  print _ _ := ⟨rfl, rfl⟩
  printError _ _ := ⟨rfl, rfl⟩
  note _ _ := ⟨rfl, rfl⟩
  fork _ _ := ⟨rfl, rfl⟩
  wait _ _ := ⟨rfl, rfl⟩
  moving _ _ := rfl
  refused path s fault refused := by
    simp only [System.changeDirectory, view] at refused ⊢
    cases hmoved : s.stage.tree.changeDirectory path with
    | ok tree => simp [hmoved] at refused
    | error fault => simp

end Dialogue

/-- Neither a failed `cd`, nor a line that is rejected, nor one that cannot be run ends a run, and
all of them are in the history file at its end, behind the line that was there before. -/
theorem run_takes_lines_amid_failures :
    let shell : Shell := ⟨⟨"/", .defaults⟩, .standard, false, "/history"⟩
    let s : Dialogue :=
      ⟨⟨{ world := { failingFork := some 0 } }, .empty⟩,
        ["cd nowhere", " \t", "ls | \"x", " ls", "quit ", "pwd"], [],
        [("/history", "#V2\nold\n".toUTF8.toList)]⟩
    ∃ visits history last,
      Progress shell (shell.start s).1 (shell.start s).2 visits history last ∧
      visits.map (·.line) = ["cd nowhere", "ls | \"x", "ls", "quit"] ∧
      (shell.run 7 s).1 = .ok () ∧ Shell.exitCode (shell.run 7 s).1 = 0 ∧
      (shell.run 7 s).2.files.lookup "/history"
        = some "#V2\nold\ncd nowhere\nls | \"x\nls\nquit\n".toUTF8.toList := by
  intro shell s
  obtain ⟨visits, history, last, saved, progress, hlines, hhistory, -, -, hsaved, hrun, hcode⟩ :=
    run_takes_lines Dialogue.view_fed shell s 7 (by decide)
  have grown : history.grown = true := by
    rw [hhistory]
    decide +kernel
  have encoded : history.encode = "#V2\nold\ncd nowhere\nls | \"x\nls\nquit\n" := by
    rw [hhistory]
    decide +kernel
  refine ⟨visits, history, last, progress, hlines.trans (by decide +kernel), ?_, hcode, ?_⟩
  · rw [hrun]
  · rw [hrun]
    -- the history has grown, and files can be written
    cases hsaved with
    | unchanged kept => cases grown.symm.trans kept
    | written _ write =>
      cases write
      exact encoded ▸ List.lookup_cons_self
    | refused _ write => cases write

end LineShell
