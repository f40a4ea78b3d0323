import LineShell.Proofs.Trace

namespace LineShell

/-!
# What a rehearsal changes

Every call adds one entry to the record and every note one record to the log, so a trace tells
both in full.  Numbers of processes and of descriptors only go up.

* `Step.adds` — all that a call that returns at once can do.
* `Runs.follows` — the entries of a trace are what its run adds to the record, the notes what it
  adds to the log.
* `Runs.within`, `Runs.caller_started` — who makes the calls of a run, and which numbers its
  processes get.
-/

/-! ### What a call changes -/

/-- A call that starts and ends no process adds one entry to the record; the processes, their codes
and the log stay, and descriptors are only used up. -/
structure Recorder.Adds (r : Recorder) (entry : Call) (r' : Recorder) : Prop where
  world : r'.world = r.world
  calls : r'.calls = r.calls ++ [entry]
  notices : r'.notices = r.notices
  nextPid : r'.nextPid = r.nextPid
  codes : r'.codes = r.codes
  nextDescriptor : r.nextDescriptor ≤ r'.nextDescriptor

namespace Recorder

/-- A fork that fails adds its entry. -/
theorem beginFork_error {r r' : Recorder} {e : Errno} (h : r.beginFork = (.error e, r')) :
    r.Adds .forkFailed r' := by
  unfold beginFork at h
  dsimp only at h
  split at h
  · obtain ⟨-, rfl⟩ := Prod.mk.inj h
    exact ⟨rfl, rfl, rfl, rfl, rfl, Int.le_refl _⟩
  · cases h

/-- An attempt that the world lets fail adds the fault, any other attempt only counts. -/
theorem attempt_eq (r : Recorder) (kind : CallKind) (call : Call) :
    (∃ e r', r.attempt kind = (some e, r') ∧ r.Adds (r.entry kind call) r') ∨
      ∃ r', r.attempt kind = (none, r') ∧ r.entry kind call = call ∧
        r.Adds (r.entry kind call) (r'.record call) ∧ r'.world = r.world ∧
        r'.codes = r.codes ∧ r'.nextDescriptor = r.nextDescriptor := by
  cases h : r.world.fault? kind (r.attempts kind) with
  | some e =>
    simp only [attempt, entry, h]
    exact .inl ⟨e, _, rfl, rfl, rfl, rfl, rfl, rfl, Int.le_refl _⟩
  | none =>
    simp only [attempt, entry, h]
    exact .inr ⟨_, rfl, trivial, ⟨rfl, rfl, rfl, rfl, rfl, Int.le_refl _⟩, rfl, rfl, rfl⟩

/-- A call that hands out nothing adds its entry. -/
theorem plainCall_adds (r : Recorder) (kind : CallKind) (call : Call) :
    r.Adds (r.entry kind call) (r.plainCall kind call).2 := by
  unfold plainCall
  rcases r.attempt_eq kind call with ⟨e, r', h, adds⟩ | ⟨r', h, -, adds, -⟩ <;> rw [h] <;>
    exact adds

theorem pipe_adds (r : Recorder) : r.Adds (r.entry .pipe (.pipe r.nextEnds)) r.pipe.2 := by
  unfold pipe
  rcases r.attempt_eq .pipe (.pipe r.nextEnds) with ⟨e, r', h, adds⟩ | ⟨r', h, -, adds, -, -, hd⟩
  · rw [h]; exact adds
  · -- the ends are those of the recorder before the attempt, which only counts
    rw [h]
    have hends : (⟨r'.nextDescriptor, r'.nextDescriptor + 1⟩ : PipeEnds) = r.nextEnds := by
      rw [hd]; rfl
    simp only [hends]
    exact { adds with
      nextDescriptor := show r.nextDescriptor ≤ r'.nextDescriptor + 2 by lia }

theorem openFile_adds (r : Recorder) (path : String) (direction : Direction) :
    r.Adds (r.entry .openFile (.openFile path direction)) (r.openFile path direction).2 := by
  unfold openFile
  rcases r.attempt_eq .openFile (.openFile path direction) with
    ⟨e, r', h, adds⟩ | ⟨r', h, -, adds, -, -, hd⟩
  · rw [h]; exact adds
  · rw [h]
    dsimp only
    split
    · exact adds
    · exact { adds with
        nextDescriptor := show r.nextDescriptor ≤ r'.nextDescriptor + 1 by lia }

theorem exec_adds (r : Recorder) (argv : List String) :
    r.Adds (r.entry .exec (.exec argv)) (r.exec argv).2 := by
  unfold exec
  rcases r.attempt_eq .exec (.exec argv) with ⟨e, r', h, adds⟩ | ⟨r', h, -, adds, -⟩
  · rw [h]; exact adds
  · rw [h]
    dsimp only
    split <;> exact adds

theorem wait_adds (r : Recorder) (pid : Pid) :
    r.Adds (r.entry .wait (.wait pid)) (r.wait pid).2 := by
  unfold wait
  rcases r.attempt_eq .wait (.wait pid) with ⟨e, r', h, adds⟩ | ⟨r', h, -, adds, -⟩
  · rw [h]; exact adds
  · rw [h]
    dsimp only
    split
    · exact adds
    · split <;> exact adds

end Recorder

/-! ### What a run changes -/

/-- An event that neither starts nor ends a process. -/
structure Event.IsPlain (e : Event) : Prop where
  entry_fork : ∀ pid, e.entry ≠ some (.fork pid)
  entry_exit : ∀ pid code, e.entry ≠ some (.exit pid code)
  action_fork : ∀ pid, e.action ≠ .fork (.ok pid)
  action_exit : ∀ code, e.action ≠ .exit code

/-- What is said of a recorder before and behind some events: the world stays, numbers are only
used up, codes are only added, and the record and the log grow by what the events add. -/
structure Recorder.Follows (r : Recorder) (es : List Event) (r' : Recorder) : Prop where
  world : r'.world = r.world
  calls : r'.calls = r.calls ++ es.filterMap (·.entry)
  notices : r'.notices = r.notices ++ es.filterMap (·.notice?)
  nextPid : r.nextPid ≤ r'.nextPid
  nextDescriptor : r.nextDescriptor ≤ r'.nextDescriptor
  codes : r.codes <:+ r'.codes

theorem Recorder.Follows.refl (r : Recorder) : r.Follows [] r :=
  ⟨rfl, (List.append_nil _).symm, (List.append_nil _).symm, Int.le_refl _, Int.le_refl _,
    List.suffix_rfl⟩

/-- A recorder follows two traces, one behind the other. -/
theorem Recorder.Follows.append {r r₁ r₂ : Recorder} {es es' : List Event}
    (h : r.Follows es r₁) (h' : r₁.Follows es' r₂) : r.Follows (es ++ es') r₂ where
  world := h'.world.trans h.world
  calls := by rw [h'.calls, h.calls, List.filterMap_append, List.append_assoc]
  notices := by rw [h'.notices, h.notices, List.filterMap_append, List.append_assoc]
  nextPid := Int.le_trans h.nextPid h'.nextPid
  nextDescriptor := Int.le_trans h.nextDescriptor h'.nextDescriptor
  codes := h.codes.trans h'.codes

/-- A call that adds its entry, seen as an event that is no note. -/
theorem Recorder.Adds.follows {r r' : Recorder} {call : Call} (h : r.Adds call r') (self : Caller)
    {action : Action} (silent : (Event.mk self action (some call)).notice? = none) :
    r.Follows [⟨self, action, some call⟩] r' where
  world := h.world
  calls := by rw [h.calls]; rfl
  notices := by rw [h.notices, List.filterMap_cons, silent]; simp
  nextPid := Int.le_of_eq h.nextPid.symm
  nextDescriptor := h.nextDescriptor
  codes := h.codes ▸ List.suffix_rfl

/-- The entry of an attempt is no start and no end of a process when the call is none. -/
theorem Event.isPlain_entry {r : Recorder} {kind : CallKind} {call : Call} {self : Caller}
    {action : Action} (call_fork : ∀ pid, call ≠ .fork pid)
    (call_exit : ∀ pid code, call ≠ .exit pid code)
    (action_fork : ∀ pid, action ≠ .fork (.ok pid)) (action_exit : ∀ code, action ≠ .exit code) :
    (Event.mk self action (some (r.entry kind call))).IsPlain := by
  unfold Recorder.entry
  refine ⟨fun pid => ?_, fun pid code => ?_, action_fork, action_exit⟩
  · split
    · simp
    · simpa using call_fork pid
  · split
    · simp
    · simpa using call_exit pid code

/-- A fork that does not fail hands out the next number. -/
theorem Recorder.beginFork_ok {r r' : Recorder} {pid : Pid} (h : r.beginFork = (.ok pid, r'))
    (self : Caller) :
    pid = r.nextPid ∧ r'.nextPid = pid + 1 ∧ r'.codes = r.codes ∧
      r.Follows [.started self pid] r' := by
  unfold beginFork at h
  dsimp only at h
  split at h
  · cases h
  · obtain ⟨h₁, rfl⟩ := Prod.mk.inj h
    cases h₁
    refine ⟨rfl, rfl, rfl, rfl, rfl, ?_, Int.le_of_lt (Int.lt_succ _), Int.le_refl _,
      List.suffix_rfl⟩
    exact (List.append_nil _).symm

/-- The end of a child adds the entry for it. -/
theorem Recorder.endFork_follows (r : Recorder) (pid : Pid) (code : Int) :
    r.Follows [.ended pid code] (r.endFork pid code) :=
  ⟨rfl, rfl, (List.append_nil _).symm, Int.le_refl _, Int.le_refl _, List.suffix_cons _ _⟩

namespace Step

variable {self : Caller} {p p' : Process} {r r' : Recorder} {es : List Event}

/-- All that a call that returns at once can do: it adds one entry to the record, or a note to the
log, or nothing. -/
theorem adds (h : Step self p r es p' r') :
    (∃ action call, es = [⟨self, action, some call⟩] ∧ (Event.mk self action (some call)).IsPlain ∧
        (Event.mk self action (some call)).notice? = none ∧ r.Adds call r') ∨
      (∃ notice, es = [⟨self, .note notice, none⟩] ∧ r' = r.note notice) ∨ (es = [] ∧ r' = r) := by
  cases h with
  | forkFailed h =>
    exact .inl ⟨_, _, rfl, by constructor <;> simp, rfl, Recorder.beginFork_error h⟩
  | pipe => exact .inl ⟨_, _, rfl, by apply Event.isPlain_entry <;> simp, rfl, r.pipe_adds⟩
  | dup2 =>
    exact .inl ⟨_, _, rfl, by apply Event.isPlain_entry <;> simp, rfl, r.plainCall_adds _ _⟩
  | close =>
    exact .inl ⟨_, _, rfl, by apply Event.isPlain_entry <;> simp, rfl, r.plainCall_adds _ _⟩
  | openFile =>
    exact .inl ⟨_, _, rfl, by apply Event.isPlain_entry <;> simp, rfl, r.openFile_adds _ _⟩
  | @execFailed argv next _ e _ h =>
    have adds := r.exec_adds argv
    rw [h] at adds
    exact .inl ⟨_, _, rfl, by apply Event.isPlain_entry <;> simp, rfl, adds⟩
  | wait => exact .inl ⟨_, _, rfl, by apply Event.isPlain_entry <;> simp, rfl, r.wait_adds _⟩
  | note => exact .inr (.inl ⟨_, rfl, rfl⟩)
  | report => exact .inr (.inr ⟨rfl, rfl⟩)

/-- The events of a call that returns at once are plain and made by the process itself. -/
theorem plain (h : Step self p r es p' r') : ∀ e ∈ es, e.caller = self ∧ e.IsPlain := by
  rcases h.adds with ⟨action, call, rfl, isPlain, -⟩ | ⟨notice, rfl, -⟩ | ⟨rfl, -⟩
  · simpa using isPlain
  · intro e he
    rw [List.mem_singleton] at he
    subst he
    exact ⟨rfl, by constructor <;> simp⟩
  · simp

/-- A call that returns at once starts and ends no process. -/
theorem nextPid (h : Step self p r es p' r') : r'.nextPid = r.nextPid ∧ r'.codes = r.codes := by
  rcases h.adds with ⟨action, call, -, -, -, adds⟩ | ⟨notice, -, rfl⟩ | ⟨-, rfl⟩
  · exact ⟨adds.nextPid, adds.codes⟩
  · exact ⟨rfl, rfl⟩
  · exact ⟨rfl, rfl⟩

/-- The recorder behind a step is the one that its events lead to. -/
theorem follows (h : Step self p r es p' r') : r.Follows es r' := by
  rcases h.adds with ⟨action, call, rfl, -, silent, adds⟩ | ⟨notice, rfl, rfl⟩ | ⟨rfl, rfl⟩
  · exact adds.follows self silent
  · exact ⟨rfl, by simp [Recorder.note], rfl, Int.le_refl _, Int.le_refl _, List.suffix_rfl⟩
  · exact Recorder.Follows.refl _

end Step

/-- The process is one of those numbered from `lo` up to `hi`. -/
def Between (lo hi : Pid) (q : Caller) : Prop :=
  ∃ pid, q = some pid ∧ lo ≤ pid ∧ pid < hi

/-- An event of a run of `root` that hands out the numbers from `lo` up to `hi`: its caller is
`root` or has one of these numbers, and so has a process that it starts. -/
structure Event.Within (root : Caller) (lo hi : Pid) (e : Event) : Prop where
  caller : e.caller = root ∨ Between lo hi e.caller
  entry_fork : ∀ pid, e.entry = some (.fork pid) → lo ≤ pid ∧ pid < hi
  action_fork : ∀ pid, e.action = .fork (.ok pid) → lo ≤ pid ∧ pid < hi

theorem Between.mono {lo lo' hi hi' : Pid} {q : Caller} (h : Between lo hi q) (hlo : lo' ≤ lo)
    (hhi : hi ≤ hi') : Between lo' hi' q := by
  obtain ⟨pid, hq, h₁, h₂⟩ := h
  exact ⟨pid, hq, by lia, by lia⟩

/-- What lies within some bounds lies within all wider ones. -/
theorem Event.Within.mono {root : Caller} {lo lo' hi hi' : Pid} {e : Event}
    (h : e.Within root lo hi) (hlo : lo' ≤ lo) (hhi : hi ≤ hi') : e.Within root lo' hi' where
  caller := h.caller.imp_right fun between => between.mono hlo hhi
  entry_fork pid hp := by have := h.entry_fork pid hp; lia
  action_fork pid hp := by have := h.action_fork pid hp; lia

/-- A plain event of the process itself is within any numbers. -/
theorem Event.IsPlain.within {e : Event} (h : e.IsPlain) (lo hi : Pid) :
    e.Within e.caller lo hi where
  caller := .inl rfl
  entry_fork pid hp := absurd hp (h.entry_fork pid)
  action_fork pid hp := absurd hp (h.action_fork pid)

namespace Runs

variable {self : Caller} {p : Process} {r r' : Recorder} {es : List Event} {code : Int}

/-- The recorder behind a run is the one that its events lead to. -/
theorem follows (h : Runs self p r es code r') : r.Follows es r' := by
  induction h with
  | exit => exact Recorder.Follows.refl _
  | @exec self argv next r code r' h =>
    have adds := r.exec_adds argv
    rw [h] at adds
    exact adds.follows self rfl
  | step first _ ih => exact first.follows.append ih
  | @fork self child next r pid r₁ body c r₂ es code r' begun inner rest ihi ihr =>
    obtain ⟨-, -, -, started⟩ := Recorder.beginFork_ok begun self
    have ended := r₂.endFork_follows pid c
    -- start, body, end and rest, in this order
    exact (started.append ihi).append (ended.append ihr)

/-- Who makes the calls of a run, and which numbers its processes get. -/
theorem within (h : Runs self p r es code r') :
    ∀ e ∈ es, e.Within self r.nextPid r'.nextPid := by
  induction h with
  | exit => simp
  | @exec self argv next r code r' h =>
    intro e he
    rw [List.mem_singleton] at he
    subst he
    have plain : (Event.mk self (.exec argv (.ok code)) (r.entry .exec (.exec argv))).IsPlain := by
      apply Event.isPlain_entry <;> simp
    exact plain.within _ _
  | @step self p r es p' r' es' code r'' first rest ih =>
    intro e he
    rcases List.mem_append.1 he with he | he
    · obtain ⟨hself, plain⟩ := first.plain e he
      exact hself ▸ plain.within _ _
    · exact first.nextPid.1 ▸ ih e he
  | @fork self child next r pid r₁ body c r₂ es code r' begun inner rest ihi ihr =>
    -- the numbers of the child's run lie between its own and those of the rest
    obtain ⟨rfl, hnext, -, -⟩ := Recorder.beginFork_ok begun self
    have hinner : r.nextPid + 1 ≤ r₂.nextPid := hnext ▸ inner.follows.nextPid
    have hrest : r₂.nextPid ≤ r'.nextPid := rest.follows.nextPid
    intro e he
    rcases mem_child.1 he with rfl | he | rfl | he
    · refine ⟨.inl rfl, fun pid hp => ?_, fun pid hp => ?_⟩
      · cases hp
        exact ⟨Int.le_refl _, by lia⟩
      · cases hp
        exact ⟨Int.le_refl _, by lia⟩
    · -- a call of the child or of a process below it
      have hwithin := (ihi e he).mono (show r.nextPid ≤ r₁.nextPid by lia) hrest
      refine ⟨.inr ?_, hwithin.entry_fork, hwithin.action_fork⟩
      rcases hwithin.caller with hchild | hbelow
      · exact ⟨r.nextPid, hchild, Int.le_refl _, by lia⟩
      · exact hbelow
    · exact ⟨.inr ⟨r.nextPid, rfl, Int.le_refl _, by lia⟩, by simp [Event.ended],
        by simp [Event.ended]⟩
    · exact (ihr e he).mono (show r.nextPid ≤ r₂.nextPid by lia) (Int.le_refl _)

/-- Who makes a call of a run is the process itself or was started in the run. -/
theorem caller_started (h : Runs self p r es code r') :
    ∀ e ∈ es, e.caller = self ∨
      ∃ pid, e.caller = some pid ∧ .fork pid ∈ es.filterMap (·.entry) := by
  induction h with
  | exit => simp
  | exec => simp
  | step first _ ih =>
    intro e he
    rcases List.mem_append.1 he with he | he
    · exact .inl (first.plain e he).1
    · refine (ih e he).imp_right fun ⟨pid, hpid, started⟩ => ⟨pid, hpid, ?_⟩
      rw [List.filterMap_append]
      exact List.mem_append_right _ started
  | @fork self child next r pid r₁ body c r₂ es code r' begun inner rest ihi ihr =>
    have start : .fork pid ∈ (Event.started self pid :: (body ++ .ended pid c :: es)).filterMap
        (·.entry) := List.mem_cons_self
    intro e he
    rcases mem_child.1 he with rfl | he | rfl | he
    · exact .inl rfl
    · -- a call of the child or of a process below it
      right
      rcases ihi e he with hchild | ⟨q, hq, started⟩
      · exact ⟨pid, hchild, start⟩
      · refine ⟨q, hq, List.mem_cons_of_mem _ ?_⟩
        rw [List.filterMap_append]
        exact List.mem_append_left _ started
    · exact .inr ⟨pid, rfl, start⟩
    · refine (ihr e he).imp_right fun ⟨q, hq, started⟩ => ⟨q, hq, List.mem_cons_of_mem _ ?_⟩
      rw [List.filterMap_append]
      exact List.mem_append_right _ (List.mem_cons_of_mem _ started)

end Runs

/-! ### What a wait tells -/

/-- A status that waiting gives is that of the process waited for. -/
theorem Recorder.pid_of_wait {r : Recorder} {pid : Pid} {status : ChildStatus}
    (h : (r.wait pid).1 = .ok status) : status.pid = pid := by
  unfold wait at h
  rcases r.attempt_eq .wait (.wait pid) with ⟨e, r', hr, -⟩ | ⟨r', hr, -⟩
  · rw [hr] at h
    cases h
  · rw [hr] at h
    dsimp only at h
    split at h
    · cases h
    · split at h <;> cases h <;> rfl

/-- The statuses heard in a run are those of the processes waited for. -/
theorem Runs.pid_of_wait {self : Caller} {p : Process} {r r' : Recorder} {es : List Event}
    {code : Int} (h : Runs self p r es code r') :
    ∀ e ∈ es, ∀ pid status, e.action = .wait pid (.ok status) → status.pid = pid := by
  induction h with
  | exit => simp
  | exec => simp
  | step first _ ih =>
    refine List.forall_mem_append.2 ⟨?_, ih⟩
    -- only a wait gives a status
    cases first with
    | wait =>
      refine List.forall_mem_singleton.2 fun pid status heq => ?_
      obtain ⟨rfl, heard⟩ := Action.wait.inj heq
      exact Recorder.pid_of_wait heard
    | _ => simp
  | fork _ _ _ ihi ihr =>
    intro e he
    rcases mem_child.1 he with rfl | he | rfl | he
    · simp [Event.started]
    · exact ihi e he
    · simp [Event.ended]
    · exact ihr e he

end LineShell
