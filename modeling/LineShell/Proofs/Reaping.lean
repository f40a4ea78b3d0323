import LineShell.Proofs.Reaping.Block

namespace LineShell

/-!
# No child is left behind

Commands are executed one after the other on one recorder, in any world.  The record is well
nested, and every process is waited for once, by the one that started it.

* `Reaped` — what is said of a child and the events around its start, its end and its wait.
* `ChildBlock.reaped` — a block says it.
* `Tidy.waits_perm` — what is waited for is what was started, as long as no wait fails.
* `children_reaped` — every child of every execution is reaped before the execution returns.
-/

/-- The event is a wait for a process, also one that the world lets fail. -/
def Event.Waits (e : Event) (pid : Pid) : Prop :=
  ∃ result, e.action = .wait pid result

/-- What is said of the child `pid` of `parent` in the trace that consists of `before`, the start
of the child, `body`, its end, `between`, the event `w` and `rest`: the events of the child and its
descendants are those up to its end, and `w` is the one wait for it. -/
structure Reaped (parent : Caller) (pid : Pid) (code : Int) (before body between : List Event)
    (w : Event) (rest : List Event) : Prop where
  /-- The number was never used before. -/
  fresh : ∀ e ∈ before, ¬ e.Mentions pid
  started_once : ∀ e ∈ body ++ between ++ w :: rest, e.entry ≠ some (.fork pid)
  ended_once : ∀ e ∈ before ++ body ++ between ++ w :: rest, ∀ c, e.entry ≠ some (.exit pid c)
  /-- Up to its end, only the child and its descendants make calls. -/
  inside : ∀ e ∈ body, Descends (before ++ .started parent pid ::
    (body ++ .ended pid code :: (between ++ w :: rest))) (some pid) e.caller
  /-- Before its start and after its end, neither the child nor a descendant makes a call. -/
  outside : ∀ e ∈ before ++ .started parent pid :: (between ++ w :: rest),
    ¬ Descends (before ++ .started parent pid ::
      (body ++ .ended pid code :: (between ++ w :: rest))) (some pid) e.caller
  /-- The wait is made by the process that started the child. -/
  wait_caller : w.caller = parent
  waits : w.Waits pid
  waited_once : ∀ e ∈ before ++ body ++ between ++ rest, ¬ e.Waits pid
  /-- The process that started the child has not ended before the wait. -/
  alive : ∀ e ∈ before ++ body ++ between, e.caller = parent → ∀ c, e.action ≠ .exit c

/-- A wait that is answered is a wait. -/
theorem Event.Heard.waits {e : Event} {pid : Pid} (h : e.Heard pid) : e.Waits pid := by
  rcases h with ⟨-, status, haction⟩ | ⟨errno, -, haction⟩
  · exact ⟨_, haction⟩
  · exact ⟨_, haction⟩

/-- A wait neither starts nor ends a process. -/
theorem Event.Heard.entry_ne {e : Event} {pid : Pid} (h : e.Heard pid) :
    (∀ q, e.entry ≠ some (.fork q)) ∧ ∀ q code, e.entry ≠ some (.exit q code) := by
  rcases h with ⟨hentry, -⟩ | ⟨errno, hentry, -⟩ <;> rw [hentry] <;> simp

namespace ChildBlock

variable {parent : Caller} {pid k : Pid} {before body between rest : List Event} {w : Event}

/-- In a trace with a block, the descendants of its child are those with its numbers. -/
theorem descends_between (h : ChildBlock parent pid k before body between w rest) (code : Int)
    {q : Caller} (hq : Descends (before ++ .started parent pid ::
      (body ++ .ended pid code :: (between ++ w :: rest))) (some pid) q) :
    Between pid k q := by
  have hpid : Between pid k (some pid) := ⟨pid, rfl, Int.le_refl _, h.lt⟩
  induction hq with
  | refl => exact hpid
  | @tail q q' _ hstarts ih =>
    obtain ⟨e, he, hcaller, child, hfork, rfl⟩ := hstarts
    obtain ⟨p, rfl, hle, hlt⟩ := ih
    have hparent : parent ≠ some p := fun heq => by have := h.parent_lt p heq; lia
    simp only [List.mem_append, List.mem_cons] at he
    -- only in the body of the block is there a call with one of its numbers
    rcases he with he | rfl | he | rfl | he | rfl | he
    · have := h.before_lt e he p (.inl hcaller)
      lia
    · exact absurd hcaller hparent
    · have := (h.body_fits e he).fork child hfork
      exact ⟨child, rfl, by lia, by lia⟩
    · cases hfork
    · exact absurd ⟨p, hcaller, hle, hlt⟩ (h.later e (List.mem_append_left _ he)).caller
    · exact absurd (h.wait_caller.symm.trans hcaller) hparent
    · exact absurd ⟨p, hcaller, hle, hlt⟩ (h.later e (List.mem_append_right _ he)).caller

/-- Nothing before the fork of a child mentions the child. -/
theorem not_mentions_before (h : ChildBlock parent pid k before body between w rest) :
    ∀ e ∈ before, ¬ e.Mentions pid := by
  intro e he hmentions
  have := h.before_lt e he pid hmentions
  lia

/-- Within its block a child is neither started nor ended nor waited for, and its parent makes no
call. -/
theorem body_apart (h : ChildBlock parent pid k before body between w rest) :
    ∀ e ∈ body, (e.entry ≠ some (.fork pid) ∧ ∀ c, e.entry ≠ some (.exit pid c)) ∧
      ¬ e.Waits pid ∧ e.caller ≠ parent := by
  intro e he
  have hfits := h.body_fits e he
  refine ⟨⟨fun hfork => ?_, fun c hexit => ?_⟩, fun ⟨result, hwait⟩ => ?_, fun hcaller => ?_⟩
  · have := hfits.fork pid hfork; lia
  · have := hfits.exit pid c hexit; lia
  · rcases hfits.wait pid result hwait with hmem | hrange
    · cases hmem
    · lia
  · rcases hfits.caller with hself | ⟨q, hq, hle, -⟩
    · have := h.parent_lt pid (hcaller.symm.trans hself); lia
    · have := h.parent_lt q (hcaller.symm.trans hq); lia

/-- Behind the block of a child only the one wait has to do with it. -/
theorem eq_or_outside (h : ChildBlock parent pid k before body between w rest) :
    ∀ e ∈ between ++ w :: rest, e = w ∨ e.Outside pid k := by
  intro e he
  rcases List.mem_append.1 he with he | he
  · exact .inr (h.later e (List.mem_append_left _ he))
  · rcases List.mem_cons.1 he with rfl | he
    · exact .inl rfl
    · exact .inr (h.later e (List.mem_append_right _ he))

/-- **A block is reaped.** What a block says in numbers, in terms of starts and descendants. -/
theorem reaped (h : ChildBlock parent pid k before body between w rest) (code : Int) :
    Reaped parent pid code before body between w rest where
  fresh := h.not_mentions_before
  started_once e he hstart := by
    rw [List.append_assoc] at he
    rcases List.mem_append.1 he with he | he
    · exact (h.body_apart e he).1.1 hstart
    · rcases h.eq_or_outside e he with rfl | hout
      · exact h.heard.entry_ne.1 pid hstart
      · have := hout.fork pid hstart
        have := h.lt
        lia
  ended_once e he c hend := by
    rw [List.append_assoc, List.append_assoc] at he
    rcases List.mem_append.1 he with he | he
    · exact h.not_mentions_before e he (.inr (.inr (.inr ⟨c, hend⟩)))
    rcases List.mem_append.1 he with he | he
    · exact (h.body_apart e he).1.2 c hend
    · rcases h.eq_or_outside e he with rfl | hout
      · exact h.heard.entry_ne.2 pid c hend
      · exact hout.exit c hend
  inside e he := (h.body_descends e he).mono fun x hx => by simp [hx]
  outside e he hdescends := by
    -- descendants have numbers of the block, and these are used nowhere else
    obtain ⟨q, hq, hle, hlt⟩ := h.descends_between code hdescends
    have hparent : parent ≠ some q := fun heq => by have := h.parent_lt q heq; lia
    rcases List.mem_append.1 he with he | he
    · have := h.before_lt e he q (.inl hq); lia
    rcases List.mem_cons.1 he with rfl | he
    · exact hparent hq
    rcases h.eq_or_outside e he with rfl | hout
    · exact hparent (h.wait_caller.symm.trans hq)
    · exact hout.caller ⟨q, hq, hle, hlt⟩
  wait_caller := h.wait_caller
  waits := h.heard.waits
  waited_once e he hwaits := by
    rw [List.append_assoc, List.append_assoc] at he
    rcases List.mem_append.1 he with he | he
    · exact h.not_mentions_before e he (.inr (.inr (.inl hwaits)))
    rcases List.mem_append.1 he with he | he
    · exact (h.body_apart e he).2.1 hwaits
    · obtain ⟨result, hwait⟩ := hwaits
      exact (h.later e he).wait result hwait
  alive e he hcaller c hexit := by
    rw [List.append_assoc] at he
    rcases List.mem_append.1 he with he | he
    · exact h.alive e (List.mem_append_left _ he) hcaller c hexit
    rcases List.mem_append.1 he with he | he
    · exact (h.body_apart e he).2.2 hcaller
    · exact h.alive e (List.mem_append_right _ he) hcaller c hexit

end ChildBlock

/-! ### Starts and waits in the record -/

/-- The process that an entry of the record starts. -/
def Call.started? : Call → Option Pid
  | .fork pid => some pid
  | _ => none

/-- The process that an entry of the record waits for. -/
def Call.awaited? : Call → Option Pid
  | .wait pid => some pid
  | _ => none

@[simp]
theorem Call.started?_eq_some {call : Call} {pid : Pid} :
    call.started? = some pid ↔ call = .fork pid := by
  cases call <;> simp [Call.started?]

@[simp]
theorem Call.awaited?_eq_some {call : Call} {pid : Pid} :
    call.awaited? = some pid ↔ call = .wait pid := by
  cases call <;> simp [Call.awaited?]

/-- The processes that the entries of events start. -/
def startedIn (es : List Event) : List Pid :=
  (es.filterMap (·.entry)).filterMap Call.started?

/-- The processes that the entries of events wait for. -/
def awaitedIn (es : List Event) : List Pid :=
  (es.filterMap (·.entry)).filterMap Call.awaited?

@[simp]
theorem startedIn_started (q : Caller) (pid : Pid) (es : List Event) :
    startedIn (.started q pid :: es) = pid :: startedIn es := rfl

@[simp]
theorem startedIn_ended (pid : Pid) (code : Int) (es : List Event) :
    startedIn (.ended pid code :: es) = startedIn es := rfl

@[simp]
theorem awaitedIn_started (q : Caller) (pid : Pid) (es : List Event) :
    awaitedIn (.started q pid :: es) = awaitedIn es := rfl

@[simp]
theorem awaitedIn_ended (pid : Pid) (code : Int) (es : List Event) :
    awaitedIn (.ended pid code :: es) = awaitedIn es := rfl

@[simp]
theorem startedIn_append (es es' : List Event) :
    startedIn (es ++ es') = startedIn es ++ startedIn es' := by
  simp [startedIn]

@[simp]
theorem awaitedIn_append (es es' : List Event) :
    awaitedIn (es ++ es') = awaitedIn es ++ awaitedIn es' := by
  simp [awaitedIn]

/-- An event adds nothing to what is picked from the record when its entry is not picked. -/
theorem filterMap_entry_eq_nil {e : Event} {pick : Call → Option Pid}
    (h : ∀ call pid, e.entry = some call → pick call ≠ some pid) :
    ([e].filterMap (·.entry)).filterMap pick = [] := by
  rw [List.filterMap_filterMap, List.filterMap_eq_nil_iff]
  intro x hx
  rw [List.mem_singleton] at hx
  subst hx
  rw [Option.bind_eq_none_iff]
  intro call hcall
  rw [Option.eq_none_iff_forall_ne_some]
  exact fun pid => h call pid hcall

/-- A plain event starts nothing. -/
theorem Event.IsPlain.startedIn_cons {e : Event} (h : e.IsPlain) (es : List Event) :
    startedIn (e :: es) = startedIn es := by
  have hnone : startedIn [e] = [] := by
    refine filterMap_entry_eq_nil fun call pid hcall hpid => ?_
    rw [Call.started?_eq_some] at hpid
    exact h.entry_fork pid (hpid ▸ hcall)
  rw [← List.singleton_append, startedIn_append, hnone, List.nil_append]

/-- An event that is no wait waits for nothing. -/
theorem Event.NoWait.awaitedIn_cons {e : Event} (h : e.NoWait) (es : List Event) :
    awaitedIn (e :: es) = awaitedIn es := by
  have hnone : awaitedIn [e] = [] := by
    refine filterMap_entry_eq_nil fun call pid hcall hpid => ?_
    rw [Call.awaited?_eq_some] at hpid
    exact h.entry pid (hpid ▸ hcall)
  rw [← List.singleton_append, awaitedIn_append, hnone, List.nil_append]

/-- The children started in a trace are those whose forks stand in its record. -/
theorem mem_startedIn {es : List Event} {pid : Pid} :
    pid ∈ startedIn es ↔ ∃ e ∈ es, e.entry = some (.fork pid) := by
  simp only [startedIn, List.mem_filterMap, Call.started?_eq_some]
  constructor
  · rintro ⟨call, ⟨e, he, hentry⟩, rfl⟩
    exact ⟨e, he, hentry⟩
  · rintro ⟨e, he, hentry⟩
    exact ⟨_, ⟨e, he, hentry⟩, rfl⟩

namespace Tidy

variable {self : Caller} {pending : List Pid} {n m : Pid} {es : List Event}

/-- **Starts and waits.** Where no wait fails, the processes waited for are those to be waited for
and those started. -/
theorem waits_perm (h : Tidy self pending n es m)
    (noFault : ∀ e ∈ es, ∀ errno, e.entry ≠ some (.fault .wait errno)) :
    (awaitedIn es).Perm (pending ++ startedIn es) := by
  induction h with
  | done => exact .nil
  | @call self pending n e es m own plain noWait rest ih =>
    rw [noWait.awaitedIn_cons, plain.startedIn_cons]
    exact ih fun x hx => noFault x (List.mem_cons_of_mem _ hx)
  | @wait self pending n e pid es m own plain heard child rest ih =>
    have hentry : e.entry = some (.wait pid) := by
      rcases heard with ⟨hentry, -⟩ | ⟨errno, hentry, -⟩
      · exact hentry
      · exact absurd hentry (noFault e List.mem_cons_self errno)
    have hcons : awaitedIn (e :: es) = pid :: awaitedIn es := by
      simp [awaitedIn, hentry, Call.awaited?]
    rw [hcons, plain.startedIn_cons]
    have htail := ih fun x hx => noFault x (List.mem_cons_of_mem _ hx)
    exact (htail.cons pid).trans ((List.perm_cons_erase child).symm.append_right _)
  | @child self pending n k m code body es inner rest ihi ihr =>
    have hbody := ihi fun x hx => noFault x (by simp [hx])
    have htail := ihr fun x hx => noFault x (by simp [hx])
    rw [awaitedIn_started, awaitedIn_append, awaitedIn_ended, startedIn_started, startedIn_append,
      startedIn_ended, List.perm_iff_count]
    -- the child itself is started here and waited for behind
    intro pid
    have h₁ := hbody.count_eq pid
    have h₂ := htail.count_eq pid
    simp only [List.count_append, List.count_cons, List.count_nil] at h₁ h₂ ⊢
    omega

/-- No number is handed out twice. -/
theorem startedIn_nodup (h : Tidy self pending n es m) : (startedIn es).Nodup := by
  induction h with
  | done => exact List.nodup_nil
  | @call self pending n e es m own plain noWait rest ih => rwa [plain.startedIn_cons]
  | @wait self pending n e pid es m own plain heard child rest ih => rwa [plain.startedIn_cons]
  | @child self pending n k m code body es inner rest ihi ihr =>
    have hinner : ∀ pid ∈ startedIn body, n + 1 ≤ pid ∧ pid < k := by
      intro pid hpid
      obtain ⟨e, he, hentry⟩ := mem_startedIn.1 hpid
      exact (inner.fits e he).fork pid hentry
    have hrest : ∀ pid ∈ startedIn es, k ≤ pid := by
      intro pid hpid
      obtain ⟨e, he, hentry⟩ := mem_startedIn.1 hpid
      exact ((rest.fits e he).fork pid hentry).1
    have hle := inner.le
    -- the child, those below it and those behind it have numbers from three ranges
    rw [startedIn_started, startedIn_append, startedIn_ended, List.nodup_cons, List.nodup_append]
    refine ⟨fun hmem => ?_, ihi, ihr, fun a ha b hb hab => ?_⟩
    · rcases List.mem_append.1 hmem with hmem | hmem
      · have := hinner n hmem; lia
      · have := hrest n hmem; lia
    · have h₁ := hinner a ha
      have h₂ := hrest b hb
      lia

/-- A wait that is in the record gives a status. -/
theorem wait_ok (h : Tidy self pending n es m) {e : Event} (he : e ∈ es) {pid : Pid}
    (hentry : e.entry = some (.wait pid)) : ∃ status, e.action = .wait pid (.ok status) := by
  induction h with
  | done => cases he
  | @call self pending n x es m own plain noWait rest ih =>
    rcases List.mem_cons.1 he with rfl | he
    · exact absurd hentry (noWait.entry pid)
    · exact ih he
  | @wait self pending n x pid' es m own plain heard child rest ih =>
    rcases List.mem_cons.1 he with rfl | he
    · -- a wait that a fault lets fail is recorded as that fault
      rcases heard with ⟨hwait, haction⟩ | ⟨errno, hfault, -⟩
      · cases hwait.symm.trans hentry
        exact haction
      · cases hfault.symm.trans hentry
    · exact ih he
  | @child self pending n k m code body es inner rest ihi ihr =>
    rcases mem_child.1 he with rfl | he | rfl | he
    · cases hentry
    · exact ihi he
    · cases hentry
    · exact ihr he

/-- Between the calls of what ran earlier and of what runs later, what the shell itself does reaps
every child it starts. -/
theorem reaped_amid {n m k l : Pid} {past line future : List Event}
    (hpast : Tidy none [] n past m) (hline : Tidy none [] m line k)
    (hfuture : Tidy none [] k future l) {e : Event} (he : e ∈ line) {pid : Pid}
    (hfork : e.entry = some (.fork pid)) :
    ∃ parent code before body between w rest,
      line = before ++ .started parent pid :: (body ++ .ended pid code :: (between ++ w :: rest)) ∧
        Reaped parent pid code (past ++ before) body between w (rest ++ future) := by
  obtain ⟨parent, k', code, before, body, between, w, rest, hsplit, hn, hk, block⟩ :=
    hline.block (by simp) List.nodup_nil (by simp) he hfork
  refine ⟨parent, code, before, body, between, w, rest, hsplit, ?_⟩
  refine ((block.append_left ?_ ?_).append_right ?_).reaped code
  · -- the numbers of the past are smaller
    intro x hx q hq
    have := (hpast.fits x hx).mentions_lt (by simp) (by simp) hpast.le hq
    lia
  · -- the parent is the shell or a process of the line, so no exit of the past is its own
    intro x hx hcaller c hexit
    have hparent := (hline.fits (.started parent pid) (by simp [hsplit])).caller
    obtain ⟨q, hq, -, hlt⟩ := (hpast.fits x hx).exit_caller c hexit
    rcases hparent with hnone | ⟨q', hq', hle, -⟩
    · cases (hq.symm.trans hcaller).trans hnone
    · cases (hq.symm.trans hcaller).trans hq'
      lia
  · -- the callers of the future are the shell and later processes
    intro x hx
    have hshell : ¬ Between pid k' none := by rintro ⟨q, hq, -⟩; cases hq
    exact (hfuture.fits x hx).outside hshell List.not_mem_nil block.lt hk

end Tidy

/-! ### Executions -/

/-- The trace of one execution is tidy. -/
theorem traceLine_tidy (session : Session) (command : Command) (s : RehearsalStage) :
    Tidy none [] s.recorder.nextPid (traceLine session command s)
      (execute session command s).2.recorder.nextPid := by
  rw [execute_recorder]
  exact (runs_trace _ none _).tidy (Process.ofLine_reaps session command) (by simp)

/-- The trace of executions one after the other is tidy. -/
theorem traceLines_tidy (lines : List (Session × Command)) (s : RehearsalStage) :
    Tidy none [] s.recorder.nextPid (traceLines lines s) (executeAll lines s).recorder.nextPid := by
  induction lines generalizing s with
  | nil => exact .done
  | cons line lines ih => exact (traceLine_tidy line.1 line.2 s).append (ih _)

/-- **Every child is reaped.** Commands are executed one after the other on a new recorder, in any
world; `line` is the trace of any one of these executions, `past` and `future` are those of the
others.  The three make up the record.  Every child that `line` starts has a number that was never
used, ends once, and encloses the calls of itself and of its descendants between its start and its
end; it is waited for once, behind its end, in `line`, by the process that started it and before
that one ends.  No wait fails but by a fault of the world, and without such faults the processes
waited for are those started, each once. -/
theorem children_reaped (world : World) (tree : FileTree) (earlier later : List (Session × Command))
    (session : Session) (command : Command) :
    let start : RehearsalStage := ⟨{ world := world }, tree⟩
    let s := executeAll earlier start
    let past := traceLines earlier start
    let line := traceLine session command s
    let future := traceLines later (execute session command s).2
    let record := (executeAll (earlier ++ (session, command) :: later) start).recorder.calls
    record = (past ++ line ++ future).filterMap (·.entry) ∧
      (∀ e ∈ line, ∀ pid, e.entry = some (.fork pid) →
        ∃ parent code before body between w rest,
          line = before ++ .started parent pid :: (body ++ .ended pid code :: (between ++ w :: rest)) ∧
            Reaped parent pid code (past ++ before) body between w (rest ++ future)) ∧
      (∀ e ∈ line, ∀ pid, e.entry = some (.wait pid) →
        ∃ status, e.action = .wait pid (.ok status)) ∧
      (record.filterMap Call.started?).Nodup ∧
      ((∀ errno, Call.fault .wait errno ∉ record) →
        (record.filterMap Call.awaited?).Perm (record.filterMap Call.started?)) := by
  intro start s past line future record
  -- each part of the record is tidy by itself, and so is the whole of it
  have hpast : Tidy none [] start.recorder.nextPid past s.recorder.nextPid :=
    traceLines_tidy earlier start
  have hline : Tidy none [] s.recorder.nextPid line _ := traceLine_tidy session command s
  have hfuture : Tidy none [] (execute session command s).2.recorder.nextPid future _ :=
    traceLines_tidy later _
  have hall : Tidy none [] start.recorder.nextPid (past ++ line ++ future) _ :=
    (hpast.append hline).append hfuture
  have hrecord : record = (past ++ line ++ future).filterMap (·.entry) := by
    have hcalls := (executeAll_follows (earlier ++ (session, command) :: later) start).calls
    rw [traceLines_append, traceLines, ← List.append_assoc] at hcalls
    exact hcalls
  refine ⟨hrecord, ?_, ?_, ?_, ?_⟩
  · intro e he pid hfork
    exact hpast.reaped_amid hline hfuture he hfork
  · intro e he pid hentry
    exact hline.wait_ok he hentry
  · rw [hrecord]
    exact hall.startedIn_nodup
  · intro noFault
    rw [hrecord] at noFault ⊢
    refine hall.waits_perm fun e he errno hentry => noFault errno ?_
    exact List.mem_filterMap.2 ⟨e, he, hentry⟩

end LineShell
