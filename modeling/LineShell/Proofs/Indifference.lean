import LineShell.Proofs.Trace.Line

namespace LineShell

/-!
# Calls do not depend on how programs end

How a program ends, whether it can be found, and which process is reported as killed decides codes
and what the log says, but no call: two worlds that differ in nothing else have the same record up
to the codes of the processes.

* `Recorder.outline` — a recorder without all that the ends of programs decide.
* `Process.Alike` — two processes that make the same calls, whatever their children end with.
* `Process.Alike.rehearse` — alike processes leave recorders with one outline.
* `Command.process_alike` — the process of a command is alike to itself.
* `calls_outline_eq` — the calls of commands in two such worlds.
-/

/-! ### Outlines -/

/-- An entry of the record without the code of a process that ended. -/
def Call.outline : Call → Call
  | .exit pid _ => .exit pid 0
  | call => call

@[simp]
theorem Call.outline_dup2 (source target : Descriptor) :
    (Call.dup2 source target).outline = .dup2 source target := rfl

@[simp]
theorem Call.outline_close (descriptor : Descriptor) :
    (Call.close descriptor).outline = .close descriptor := rfl

/-- A world in which every program is found and ends by itself with code zero. -/
def World.outline (world : World) : World :=
  { world with missingPrograms := [], exitCodes := [], signals := [] }

/-- The faults of a world are left in its outline. -/
@[simp]
theorem World.fault?_outline (world : World) (kind : CallKind) (nth : Nat) :
    world.outline.fault? kind nth = world.fault? kind nth := rfl

namespace Recorder

/-- A recorder without the log, the codes of processes and all that programs do. -/
def outline (r : Recorder) : Recorder :=
  { r with
    world := r.world.outline
    calls := r.calls.map Call.outline
    notices := []
    codes := r.codes.map fun entry => (entry.1, 0) }

/-- A note leaves no mark in the outline. -/
@[simp]
theorem outline_note (r : Recorder) (notice : Notice) : (r.note notice).outline = r.outline := rfl

/-- An entry is recorded in the outline by its own. -/
@[simp]
theorem outline_record (r : Recorder) (call : Call) :
    (r.record call).outline = r.outline.record call.outline := by
  simp [outline, record]

/-- Whether a call fails is decided by the outline. -/
theorem attempt_outline (r : Recorder) (kind : CallKind) :
    r.outline.attempt kind = ((r.attempt kind).1, (r.attempt kind).2.outline) := by
  have hfault : r.outline.world.fault? kind (r.outline.attempts kind)
      = r.world.fault? kind (r.attempts kind) := rfl
  simp only [attempt, hfault]
  cases r.world.fault? kind (r.attempts kind) with
  | none => rfl
  | some e => simp [outline, record, Call.outline]

/-- The number of a child is decided by the outline. -/
theorem beginFork_outline (r : Recorder) :
    r.outline.beginFork = (r.beginFork.1, r.beginFork.2.outline) := by
  have hfork : r.outline.world.failingFork = r.world.failingFork := rfl
  have hforks : r.outline.forks = r.forks := rfl
  simp only [beginFork, hfork, hforks]
  split <;> simp [outline, record, Call.outline]

/-- The code of a child does not show in the outline. -/
theorem endFork_outline (r : Recorder) (pid : Pid) (code : Int) :
    (r.endFork pid code).outline = r.outline.endFork pid 0 := by
  simp [endFork, outline, record, Call.outline]

/-- The ends of a pipe are decided by the outline. -/
theorem pipe_outline (r : Recorder) : r.outline.pipe = (r.pipe.1, r.pipe.2.outline) := by
  have hattempt := r.attempt_outline .pipe
  simp only [pipe, hattempt]
  rcases r.attempt .pipe with ⟨_ | e, r'⟩
  · simp [outline, record, Call.outline, World.outline]
  · rfl

theorem plainCall_outline (r : Recorder) (kind : CallKind) {call : Call}
    (plain : call.outline = call) :
    r.outline.plainCall kind call =
      ((r.plainCall kind call).1, (r.plainCall kind call).2.outline) := by
  have hattempt := r.attempt_outline kind
  simp only [plainCall, hattempt]
  rcases r.attempt kind with ⟨_ | e, r'⟩
  · simp [plain]
  · rfl

theorem openFile_outline (r : Recorder) (path : String) (direction : Direction) :
    r.outline.openFile path direction
      = ((r.openFile path direction).1, (r.openFile path direction).2.outline) := by
  have hattempt := r.attempt_outline .openFile
  simp only [openFile, hattempt]
  rcases r.attempt .openFile with ⟨_ | e, r'⟩
  · have hmissing : (r'.outline.record (.openFile path direction)).world.missingFiles
        = (r'.record (.openFile path direction)).world.missingFiles := rfl
    simp only [hmissing]
    split <;> simp [outline, record, Call.outline, World.outline]
  · rfl

/-- An attempt to run a program is recorded, whether the program is found or not. -/
theorem exec_outline (r : Recorder) (argv : List String) :
    (r.outline.exec argv).2 = (r.exec argv).2.outline := by
  have hattempt := r.attempt_outline .exec
  simp only [exec, hattempt]
  rcases r.attempt .exec with ⟨_ | e, r'⟩
  · dsimp only
    split <;> split <;> simp [Call.outline]
  · rfl

/-- Whether the code of a process is known does not depend on the code. -/
theorem lookup_outline (codes : List (Pid × Int)) (pid : Pid) :
    (codes.map fun entry => (entry.1, (0 : Int))).lookup pid
      = (codes.lookup pid).map fun _ => 0 := by
  induction codes with
  | nil => rfl
  | cons entry codes ih =>
    rw [List.map_cons, List.lookup_cons, List.lookup_cons]
    split
    · rfl
    · exact ih

/-- A wait is recorded, and it fails or not, whatever the child ended with. -/
theorem wait_outline (r : Recorder) (pid : Pid) :
    (r.outline.wait pid).1.map (fun _ => ()) = (r.wait pid).1.map (fun _ => ()) ∧
      (r.outline.wait pid).2 = (r.wait pid).2.outline := by
  have hattempt := r.attempt_outline .wait
  simp only [wait, hattempt]
  rcases r.attempt .wait with ⟨_ | e, r'⟩
  · have hcodes : (r'.outline.record (.wait pid)).codes.lookup pid
        = ((r'.record (.wait pid)).codes.lookup pid).map fun _ => 0 := lookup_outline r'.codes pid
    have hrecord : r'.outline.record (.wait pid) = (r'.record (.wait pid)).outline :=
      (outline_record r' (.wait pid)).symm
    simp only [hcodes]
    cases (r'.record (.wait pid)).codes.lookup pid with
    | none => exact ⟨rfl, hrecord⟩
    | some code =>
      -- a child that is reported as killed in one of the two has ended in the other
      dsimp only [Option.map]
      split <;> split <;> exact ⟨rfl, hrecord⟩
  · exact ⟨rfl, rfl⟩

/-- A call that an outline does not change has one result on recorders with one outline, and
leaves them so. -/
theorem call_alike {α : Type} (call : Recorder → α × Recorder)
    (h : ∀ r, call r.outline = ((call r).1, (call r).2.outline)) {r r' : Recorder}
    (hr : r.outline = r'.outline) :
    (call r).1 = (call r').1 ∧ (call r).2.outline = (call r').2.outline :=
  Prod.mk.inj ((h r).symm.trans ((congrArg call hr).trans (h r')))

section Alike

variable {r r' : Recorder} (h : r.outline = r'.outline)
include h

/-- Recorders with one outline give a child the same number. -/
theorem beginFork_alike :
    r.beginFork.1 = r'.beginFork.1 ∧ r.beginFork.2.outline = r'.beginFork.2.outline :=
  call_alike beginFork beginFork_outline h

/-- They hand out the same ends of a pipe. -/
theorem pipe_alike : r.pipe.1 = r'.pipe.1 ∧ r.pipe.2.outline = r'.pipe.2.outline :=
  call_alike pipe pipe_outline h

/-- They give the same answer to a call that hands out nothing. -/
theorem plainCall_alike (kind : CallKind) {call : Call} (plain : call.outline = call) :
    (r.plainCall kind call).1 = (r'.plainCall kind call).1 ∧
      (r.plainCall kind call).2.outline = (r'.plainCall kind call).2.outline :=
  call_alike (fun r => r.plainCall kind call) (fun r => r.plainCall_outline kind plain) h

/-- They hand out the same descriptor of a file. -/
theorem openFile_alike (path : String) (direction : Direction) :
    (r.openFile path direction).1 = (r'.openFile path direction).1 ∧
      (r.openFile path direction).2.outline = (r'.openFile path direction).2.outline :=
  call_alike (fun r => r.openFile path direction) (fun r => r.openFile_outline path direction) h

/-- They keep one outline when a program is tried, though it may be missing in one world only. -/
theorem exec_alike (argv : List String) :
    (r.exec argv).2.outline = (r'.exec argv).2.outline := by
  rw [← r.exec_outline, h, r'.exec_outline]

/-- Recorders with one outline let a wait fail alike. -/
theorem wait_alike (pid : Pid) :
    (r.wait pid).2.outline = (r'.wait pid).2.outline ∧
      ((∃ e, (r.wait pid).1 = .error e ∧ (r'.wait pid).1 = .error e) ∨
        ∃ status status', (r.wait pid).1 = .ok status ∧ (r'.wait pid).1 = .ok status') := by
  refine ⟨by rw [← (r.wait_outline pid).2, h, (r'.wait_outline pid).2], ?_⟩
  have hresult := (r.wait_outline pid).1.symm.trans
    ((congrArg (fun r => (wait r pid).1.map fun _ => ()) h).trans (r'.wait_outline pid).1)
  cases hr : (r.wait pid).1 <;> cases hr' : (r'.wait pid).1 <;> rw [hr, hr'] at hresult
  case error.error e e' =>
    obtain rfl : e = e' := by simpa [Except.map] using hresult
    exact .inl ⟨e, rfl, rfl⟩
  case ok.ok status status' => exact .inr ⟨status, status', rfl, rfl⟩
  all_goals cases hresult

end Alike

end Recorder

/-! ### Alike processes -/

/-- Two processes that make the same calls, whatever their children end with; notes, reports and
codes do not count. -/
inductive Process.Alike : Process → Process → Prop
  | exit {code code'} : Alike (.exit code) (.exit code')
  | fork {child child' next next'} (inner : Alike child child')
      (rest : ∀ result, Alike (next result) (next' result)) :
      Alike (.fork child next) (.fork child' next')
  | pipe {next next'} (rest : ∀ result, Alike (next result) (next' result)) :
      Alike (.pipe next) (.pipe next')
  | dup2 {source target next next'} (rest : ∀ result, Alike (next result) (next' result)) :
      Alike (.dup2 source target next) (.dup2 source target next')
  | close {descriptor next next'} (rest : ∀ result, Alike (next result) (next' result)) :
      Alike (.close descriptor next) (.close descriptor next')
  | openFile {path direction next next'} (rest : ∀ result, Alike (next result) (next' result)) :
      Alike (.openFile path direction next) (.openFile path direction next')
  /-- When the program cannot be run, the process makes no call. -/
  | exec {argv next next'} (left : ∀ e, Alike (next e) (.exit 0))
      (right : ∀ e, Alike (.exit 0) (next' e)) : Alike (.exec argv next) (.exec argv next')
  /-- Only a failure of the wait itself is seen, not how the child ended. -/
  | wait {pid next next'} (fails : ∀ e, Alike (next (.error e)) (next' (.error e)))
      (ends : ∀ status status', Alike (next (.ok status)) (next' (.ok status'))) :
      Alike (.wait pid next) (.wait pid next')
  | note_left {notice p q} (rest : Alike p q) : Alike (.note notice p) q
  | note_right {notice p q} (rest : Alike p q) : Alike p (.note notice q)
  | report_left {failure p q} (rest : Alike p q) : Alike (.report failure p) q
  | report_right {failure p q} (rest : Alike p q) : Alike p (.report failure q)

namespace Process.Alike

variable {p q : Process}

/-- **Two runs.** Alike processes, run on recorders with one outline, leave recorders with one
outline. -/
theorem rehearse (h : p.Alike q) {r r' : Recorder} (hr : r.outline = r'.outline) :
    (p.rehearse r).2.outline = (q.rehearse r').2.outline := by
  -- The recorders vary along the runs; each call has the same result on both, or, where it is a
  -- wait, fails on both or on none.
  induction h generalizing r r' with
  | exit => exact hr
  | @fork child child' next next' inner rest ihi ihr =>
    obtain ⟨hresult, hnext⟩ := Recorder.beginFork_alike hr
    simp only [Process.rehearse]
    rcases hr₁ : r.beginFork with ⟨e | pid, r₁⟩ <;>
      rcases hr₁' : r'.beginFork with ⟨e' | pid', r₁'⟩ <;>
      simp only [hr₁, hr₁'] at hresult hnext <;> cases hresult
    · exact ihr _ hnext
    · refine ihr _ ?_
      rw [Recorder.endFork_outline, Recorder.endFork_outline, ihi hnext]
  | @pipe next next' rest ih =>
    obtain ⟨hresult, hnext⟩ := Recorder.pipe_alike hr
    simp only [Process.rehearse, hresult]
    exact ih _ hnext
  | @dup2 source target next next' rest ih =>
    obtain ⟨hresult, hnext⟩ := Recorder.plainCall_alike hr .dup2 (Call.outline_dup2 source target)
    simp only [Process.rehearse, hresult]
    exact ih _ hnext
  | @close descriptor next next' rest ih =>
    obtain ⟨hresult, hnext⟩ := Recorder.plainCall_alike hr .close (Call.outline_close descriptor)
    simp only [Process.rehearse, hresult]
    exact ih _ hnext
  | @openFile path direction next next' rest ih =>
    obtain ⟨hresult, hnext⟩ := Recorder.openFile_alike hr path direction
    simp only [Process.rehearse, hresult]
    exact ih _ hnext
  | @exec argv next next' left right ihl ihr =>
    -- one process may have been replaced by its program where the other has failed to run it
    have hnext := Recorder.exec_alike hr argv
    have hleft : ∀ e, ((next e).rehearse (r.exec argv).2).2.outline = (r.exec argv).2.outline :=
      fun e => ihl e rfl
    have hright : ∀ e,
        (r'.exec argv).2.outline = ((next' e).rehearse (r'.exec argv).2).2.outline :=
      fun e => ihr e rfl
    simp only [Process.rehearse]
    rcases hexec : r.exec argv with ⟨e | code, r₁⟩ <;>
      rcases hexec' : r'.exec argv with ⟨e' | code', r₁'⟩ <;>
      rw [hexec] at hnext hleft <;> rw [hexec'] at hnext hright
    · exact (hleft e).trans (hnext.trans (hright e'))
    · exact (hleft e).trans hnext
    · exact hnext.trans (hright e')
    · exact hnext
  | @wait pid next next' fails ends ihf ihe =>
    obtain ⟨hnext, hresult⟩ := Recorder.wait_alike hr pid
    simp only [Process.rehearse]
    rcases hresult with ⟨e, h, h'⟩ | ⟨status, status', h, h'⟩ <;> rw [h, h']
    · exact ihf e hnext
    · exact ihe status status' hnext
  | note_left rest ih => exact ih hr
  | note_right rest ih => exact ih hr
  | report_left rest ih => exact ih hr
  | report_right rest ih => exact ih hr

end Process.Alike

/-! ### The parts of a process -/

variable {next next' : Process}

/-- Failures may differ, since they are only reported. -/
theorem fail_alike (failure failure' : Failure) :
    (Process.fail failure).Alike (Process.fail failure') :=
  .note_left (.note_right (.report_left (.report_right .exit)))

/-- Processes stay alike behind a moved descriptor. -/
theorem moveTo_alike (source target : Descriptor) (h : next.Alike next') :
    (moveTo source target next).Alike (moveTo source target next') := by
  unfold moveTo
  split
  · exact h
  · refine .dup2 ?_
    rintro (e | _)
    · exact fail_alike _ _
    · refine .close ?_
      rintro (e | _)
      · exact fail_alike _ _
      · exact h

/-- They stay alike behind an attached end of a pipe. -/
theorem attach_alike (unused used target : Descriptor) (h : next.Alike next') :
    (attach unused used target next).Alike (attach unused used target next') := by
  refine .close ?_
  rintro (e | _)
  · exact fail_alike _ _
  · exact moveTo_alike used target h

/-- They stay alike behind an opened file. -/
theorem openOnto_alike (path : String) (direction : Direction) (h : next.Alike next') :
    (openOnto path direction next).Alike (openOnto path direction next') := by
  refine .openFile ?_
  rintro (e | descriptor)
  · exact fail_alike _ _
  · exact moveTo_alike descriptor direction.stream h

/-- They stay alike behind a closed end of a pipe. -/
theorem closeEnd_alike (descriptor : Descriptor) (h : next.Alike next') :
    (closeEnd descriptor next).Alike (closeEnd descriptor next') := by
  refine .close ?_
  rintro (e | _)
  · exact .note_left (.note_right h)
  · exact h

theorem closeEnds_alike (ends : PipeEnds) (h : next.Alike next') :
    (closeEnds ends next).Alike (closeEnds ends next') :=
  closeEnd_alike ends.read (closeEnd_alike ends.write h)

/-- What is noted of the ends of two children need not be the same. -/
theorem noteEnd_alike (status status' : ChildStatus) (h : next.Alike next') :
    (noteEnd status next).Alike (noteEnd status' next') := by
  unfold noteEnd
  split <;> split
  · exact h
  · exact .note_right h
  · exact .note_left h
  · exact .note_left (.note_right h)

/-- A program makes the same calls whether or not it takes the place of its process. -/
theorem launch_alike (aliases : AliasTable) (argv : List String) :
    (launch aliases argv).Alike (launch aliases argv) := by
  unfold launch
  split
  · exact fail_alike _ _
  · refine .note_left (.note_right (.exec (fun e => ?_) fun e => ?_))
    · exact .note_left (.report_left .exit)
    · exact .note_right (.report_right .exit)

/-- What is heard of the one child of a pipe does not decide a call. -/
theorem abandonPipe_alike (left : Pid) (errno : Errno) :
    (abandonPipe left errno).Alike (abandonPipe left errno) :=
  .wait (fun _ => fail_alike _ _) fun status status' =>
    noteEnd_alike status status' (fail_alike _ _)

/-- What is heard of the sides of a pipe does not decide a call. -/
theorem awaitPipe_alike (left right : Pid) :
    (awaitPipe left right).Alike (awaitPipe left right) := by
  -- both waits are made whatever the first results in
  refine .wait (fun e => .wait (fun e' => ?_) fun status status' => ?_)
    fun leftStatus leftStatus' => .wait (fun e => ?_) fun rightStatus rightStatus' => ?_
  · exact fail_alike _ _
  · exact fail_alike _ _
  · exact fail_alike _ _
  · exact noteEnd_alike _ _ (noteEnd_alike _ _ .exit)

/-- What is heard of the child of a redirect does not decide a call. -/
theorem awaitRedirect_alike (pid : Pid) : (awaitRedirect pid).Alike (awaitRedirect pid) :=
  .wait (fun _ => fail_alike _ _) fun status status' => noteEnd_alike status status' .exit

/-! ### Whole processes -/

/-- **Commands are alike to themselves.** The process of a command makes the same calls whatever
its children end with. -/
theorem Command.process_alike (aliases : AliasTable) (command : Command) :
    (command.process aliases).Alike (command.process aliases) := by
  induction command with
  | exec argv => exact launch_alike aliases argv
  | pipe left right ihl ihr =>
    refine .pipe ?_
    rintro (e | ends)
    · exact fail_alike _ _
    refine .fork (attach_alike _ _ _ ihl) ?_
    rintro (e | leftPid)
    · exact closeEnds_alike ends (fail_alike _ _)
    refine .fork (attach_alike _ _ _ ihr) ?_
    rintro (e | rightPid)
    · exact closeEnds_alike ends (abandonPipe_alike leftPid e)
    · -- notes may differ, so each side may make one by itself
      exact closeEnds_alike ends (.note_left (.note_right (awaitPipe_alike leftPid rightPid)))
  | redirect inner direction path ih =>
    refine .fork (openOnto_alike path direction ih) ?_
    rintro (e | pid)
    · exact fail_alike _ _
    · exact .note_left (.note_right (awaitRedirect_alike pid))

/-- The shell makes the same calls for a line, however its child ends. -/
theorem Process.ofLine_alike (session : Session) (command : Command) :
    (Process.ofLine session command).Alike (Process.ofLine session command) := by
  unfold Process.ofLine
  split
  · exact .note_left (.note_right .exit)
  · refine .note_left (.note_right (.fork (command.process_alike session.aliases) ?_))
    rintro (e | pid)
    · exact .exit
    · exact .note_left (.note_right (.wait (fun _ => .exit) fun _ _ =>
        .note_left (.note_right .exit)))

/-! ### Lines -/

/-- Commands executed on recorders with one outline leave recorders with one outline. -/
theorem executeAll_outline (lines : List (Session × Command)) {s s' : RehearsalStage}
    (h : s.recorder.outline = s'.recorder.outline) :
    (executeAll lines s).recorder.outline = (executeAll lines s').recorder.outline := by
  induction lines generalizing s s' with
  | nil => exact h
  | cons line lines ih =>
    refine ih ?_
    rw [execute_recorder, execute_recorder]
    exact (Process.ofLine_alike line.1 line.2).rehearse h

/-- **Calls do not depend on how programs end.** Commands are executed one after the other in two
worlds that differ in the programs that cannot be found, the codes that programs end with and the
processes that are reported as killed.  The records are the same but for the codes of the
processes. -/
theorem calls_outline_eq (world : World) (missingPrograms : List String)
    (exitCodes : List (String × Int)) (signals : List (Pid × Signal)) (tree : FileTree)
    (lines : List (Session × Command)) :
    let other : World := { world with missingPrograms, exitCodes, signals }
    (executeAll lines ⟨{ world := world }, tree⟩).recorder.calls.map Call.outline
      = (executeAll lines ⟨{ world := other }, tree⟩).recorder.calls.map Call.outline := by
  intro other
  let start : RehearsalStage := ⟨{ world := world }, tree⟩
  let start' : RehearsalStage := ⟨{ world := other }, tree⟩
  have hstart : start.recorder.outline = start'.recorder.outline := rfl
  exact congrArg Recorder.calls (executeAll_outline lines hstart)

end LineShell
