import LineShell.Proofs.Reaping.Tidy

namespace LineShell

/-!
# Worlds without faults

In a world without faults only two calls can fail, and they fail for what is missing: a file to be
read or a program.  Every wait is answered with the code of a child that has ended.

* `World.Faultless` — no call fails because the world says so.
* `World.reported` — the code that a process is reported with.
* `World.Answers` — what a call results in.
* `Runs.answered` — the calls of a run result in that.
-/

/-- No call fails because the world says so. -/
structure World.Faultless (world : World) : Prop where
  faults : world.faults = []
  failingFork : world.failingFork = none

/-- The code that stands for the end of a process, which the world may present as a kill. -/
def World.reported (world : World) (pid : Pid) (code : Int) : Int :=
  match world.signals.lookup pid with
  | some signal => 128 + signal.number
  | none => code

/-- What a call results in where no call fails but for something that is missing; `ended` tells the
codes of the processes that have ended. -/
def World.Answers (world : World) (ended : Pid → Int → Prop) : Action → Prop
  | .fork result => ∃ pid, result = .ok pid
  | .pipe result => ∃ ends, result = .ok ends
  | .dup2 _ _ result => result = .ok ()
  | .close _ result => result = .ok ()
  | .openFile path direction result =>
    if direction = .input ∧ path ∈ world.missingFiles then result = .error .enoent
    else ∃ descriptor, result = .ok descriptor
  | .exec argv result =>
    result = if argv.headD "" ∈ world.missingPrograms then .error .enoent
      else .ok (world.exitCode (argv.headD ""))
  | .wait pid result =>
    ∃ code status, ended pid code ∧ result = .ok status ∧ status.code = world.reported pid code
  | .exit _ | .note _ => True

/-! ### Single calls -/

namespace Recorder

variable {r : Recorder}

/-- In a world without faults no call is made to fail. -/
theorem attempt_eq_none (h : r.world.Faultless) (kind : CallKind) :
    ∃ r', r.attempt kind = (none, r') ∧ r'.world = r.world ∧ r'.codes = r.codes := by
  have hfault : r.world.fault? kind (r.attempts kind) = none := by
    simp [World.fault?, h.faults]
  simp only [attempt, hfault]
  exact ⟨_, rfl, rfl, rfl⟩

/-- Every child can be started. -/
theorem beginFork_answer (h : r.world.Faultless) : ∃ r', r.beginFork = (.ok r.nextPid, r') := by
  simp only [beginFork, h.failingFork]
  exact ⟨_, rfl⟩

/-- Every pipe can be made. -/
theorem pipe_answer (h : r.world.Faultless) : ∃ ends, r.pipe.1 = .ok ends := by
  obtain ⟨r', hr', -⟩ := attempt_eq_none h .pipe
  simp only [pipe, hr']
  exact ⟨_, rfl⟩

/-- Every descriptor can be moved and closed. -/
theorem plainCall_answer (h : r.world.Faultless) (kind : CallKind) (call : Call) :
    (r.plainCall kind call).1 = .ok () := by
  obtain ⟨r', hr', -⟩ := attempt_eq_none h kind
  simp only [plainCall, hr']

/-- A file can be opened unless it is to be read and is missing. -/
theorem openFile_answer (h : r.world.Faultless) (path : String) (direction : Direction)
    (ended : Pid → Int → Prop) :
    r.world.Answers ended (.openFile path direction (r.openFile path direction).1) := by
  obtain ⟨r', hr', hworld, -⟩ := attempt_eq_none h .openFile
  simp only [openFile, hr', record, hworld, World.Answers]
  split
  · rfl
  · exact ⟨_, rfl⟩

/-- A program takes the place of its process unless it is missing. -/
theorem exec_answer (h : r.world.Faultless) (argv : List String) (ended : Pid → Int → Prop) :
    r.world.Answers ended (.exec argv (r.exec argv).1) := by
  obtain ⟨r', hr', hworld, -⟩ := attempt_eq_none h .exec
  simp only [exec, hr', record, hworld, World.Answers]
  split <;> rfl

/-- A wait is answered with the code of the child, or with the signal that stands for it. -/
theorem wait_answer (h : r.world.Faultless) {pid : Pid} {code : Int}
    (known : r.codes.lookup pid = some code) :
    ∃ status, (r.wait pid).1 = .ok status ∧ status.code = r.world.reported pid code := by
  obtain ⟨r', hr', hworld, hcodes⟩ := attempt_eq_none h .wait
  simp only [wait, hr', record, hcodes, known, hworld, World.reported]
  cases r.world.signals.lookup pid with
  | none => exact ⟨_, rfl, rfl⟩
  | some signal => exact ⟨_, rfl, rfl⟩

/-- The end of a child is no news of another one. -/
theorem endFork_lookup {pid child : Pid} (h : pid ≠ child) (code : Int) :
    (r.endFork child code).codes.lookup pid = r.codes.lookup pid := by
  have hne : (pid == child) = false := by simpa using h
  simp [endFork, record, List.lookup_cons, hne]

end Recorder

/-! ### Runs -/

/-- A call that returns at once is answered, if it waits for a child whose code is known. -/
theorem Step.answered {self : Caller} {p p' : Process} {r r' : Recorder} {es : List Event}
    {pending : List Pid} {ended : Pid → Int → Prop} (h : Step self p r es p' r')
    (faultless : r.world.Faultless) (reaps : p.Reaps pending)
    (known : ∀ pid ∈ pending, ∃ c, r.codes.lookup pid = some c ∧ ended pid c) :
    ∀ e ∈ es, r.world.Answers ended e.action := by
  cases h with
  | report => simp
  | note => simp [World.Answers]
  | forkFailed h =>
    obtain ⟨r₁, hr₁⟩ := Recorder.beginFork_answer faultless
    cases hr₁.symm.trans h
  | pipe => exact List.forall_mem_singleton.2 (Recorder.pipe_answer faultless)
  | dup2 => exact List.forall_mem_singleton.2 (Recorder.plainCall_answer faultless _ _)
  | close => exact List.forall_mem_singleton.2 (Recorder.plainCall_answer faultless _ _)
  | openFile => exact List.forall_mem_singleton.2 (Recorder.openFile_answer faultless _ _ _)
  | @execFailed argv next r e r' h =>
    have answer := Recorder.exec_answer faultless argv ended
    rw [h] at answer
    exact List.forall_mem_singleton.2 answer
  | @wait pid next r =>
    obtain ⟨c, hc, hended⟩ := known pid reaps.1
    obtain ⟨status, hstatus, hcode⟩ := Recorder.wait_answer faultless hc
    exact List.forall_mem_singleton.2 ⟨c, status, hended, hstatus, hcode⟩

/-- A run leaves the codes of processes from before as they are. -/
theorem Runs.codes_lookup {self : Caller} {p : Process} {r r' : Recorder} {es : List Event}
    {code : Int} (h : Runs self p r es code r') {pid : Pid} (hpid : pid < r.nextPid) :
    r'.codes.lookup pid = r.codes.lookup pid := by
  induction h with
  | exit => rfl
  | @exec self argv next r code r' h =>
    have adds := r.exec_adds argv
    rw [h] at adds
    rw [adds.codes]
  | step first rest ih =>
    obtain ⟨hnext, hcodes⟩ := first.nextPid
    rw [ih (hnext ▸ hpid), hcodes]
  | @fork self child next r n r₁ body c r₂ es code r' begun inner rest ihi ihr =>
    obtain ⟨rfl, hnext, hcodes, -⟩ := Recorder.beginFork_ok begun self
    have hlt : pid < r₁.nextPid := by lia
    have hle : r₁.nextPid ≤ r₂.nextPid := inner.follows.nextPid
    -- the one code that is added is that of the child, which has a later number
    rw [ihr (Int.lt_of_lt_of_le hlt hle), Recorder.endFork_lookup (Int.ne_of_lt hpid), ihi hlt,
      hcodes]

/-- **Runs are answered.** In a world without faults the calls of a run, those of its descendants
included, result in what the world holds for them. -/
theorem Runs.answered {self : Caller} {p : Process} {r r' : Recorder} {es : List Event} {code : Int}
    {pending : List Pid} {ended : Pid → Int → Prop} (h : Runs self p r es code r')
    (faultless : r.world.Faultless) (reaps : p.Reaps pending)
    (known : ∀ pid ∈ pending, pid < r.nextPid ∧ ∃ c, r.codes.lookup pid = some c ∧ ended pid c)
    (ends : ∀ pid c, .ended pid c ∈ es → ended pid c) :
    ∀ e ∈ es, r.world.Answers ended e.action := by
  induction h generalizing pending with
  | exit => simp
  | @exec self argv next r code r' h =>
    have answer := Recorder.exec_answer faultless argv ended
    rw [h] at answer
    exact List.forall_mem_singleton.2 answer
  | @step self p r es p' r' es' code r'' first rest ih =>
    obtain ⟨hnext, hcodes⟩ := first.nextPid
    have hworld := first.follows.world
    have hfirst := first.answered faultless reaps fun x hx => (known x hx).2
    refine List.forall_mem_append.2 ⟨hfirst, ?_⟩
    have ends' : ∀ pid c, .ended pid c ∈ es' → ended pid c :=
      fun pid c hmem => ends pid c (List.mem_append_right _ hmem)
    rw [← hworld]
    -- a wait leaves one child less to wait for, any other call leaves them all
    rcases first.reaps reaps with ⟨pid, -, hreaps, -⟩ | ⟨hreaps, -⟩
    · refine ih (hworld ▸ faultless) hreaps (fun x hx => ?_) ends'
      rw [hnext, hcodes]
      exact known x (List.mem_of_mem_erase hx)
    · refine ih (hworld ▸ faultless) hreaps (fun x hx => ?_) ends'
      rw [hnext, hcodes]
      exact known x hx
  | @fork self child next r pid r₁ body c r₂ es code r' begun inner rest ihi ihr =>
    obtain ⟨rfl, hnext, hcodes, started⟩ := Recorder.beginFork_ok begun self
    have hworld : r₁.world = r.world := started.world
    have hworld' : (r₂.endFork r.nextPid c).world = r.world := inner.follows.world.trans hworld
    have hle : r₁.nextPid ≤ r₂.nextPid := inner.follows.nextPid
    -- the child has no children yet, and the process one more than before
    have hinner := ihi (hworld ▸ faultless) reaps.1 (by simp) fun pid c hmem =>
      ends pid c (mem_child.2 (.inr (.inl hmem)))
    have hrest := ihr (hworld'.symm ▸ faultless) (reaps.2.2 _) ?_ fun pid c hmem =>
      ends pid c (mem_child.2 (.inr (.inr (.inr hmem))))
    · rw [hworld] at hinner
      rw [hworld'] at hrest
      intro e he
      rcases mem_child.1 he with rfl | he | rfl | he
      · exact ⟨_, rfl⟩
      · exact hinner e he
      · exact trivial
      · exact hrest e he
    · -- the codes of the children, the new one among them, are known behind the block
      intro x hx
      rcases List.mem_cons.1 hx with rfl | hx
      · refine ⟨show r.nextPid < r₂.nextPid by lia, c, ?_, ?_⟩
        · simp [Recorder.endFork, Recorder.record]
        · exact ends _ c (mem_child.2 (.inr (.inr (.inl rfl))))
      · obtain ⟨hlt, c', hc', hended⟩ := known x hx
        refine ⟨show x < r₂.nextPid by lia, c', ?_, hended⟩
        rw [Recorder.endFork_lookup (Int.ne_of_lt hlt), inner.codes_lookup (by lia), hcodes, hc']

end LineShell
