import LineShell.Proofs.Reaping.Discipline

namespace LineShell

/-!
# Tidy traces

The traces of processes that reap have a grammar: a child is one block between its start and its
end, and its number is new; what is waited for is a child whose block is closed and that was not
waited for before.

* `Tidy` — the grammar.
* `Step.reaps` — a call of a process that reaps is a wait for one of its children, or no wait.
* `Runs.tidy` — every run of a process that reaps has a tidy trace.
-/

/-! ### The grammar -/

/-- A wait that the world lets happen gives a status; no other wait is in the record. -/
def Event.Heard (e : Event) (pid : Pid) : Prop :=
  (e.entry = some (.wait pid) ∧ ∃ status, e.action = .wait pid (.ok status)) ∨
    ∃ errno, e.entry = some (.fault .wait errno) ∧ e.action = .wait pid (.error errno)

/-- An event that is no wait. -/
structure Event.NoWait (e : Event) : Prop where
  action : ∀ pid result, e.action ≠ .wait pid result
  entry : ∀ pid, e.entry ≠ some (.wait pid)

/-- The events of a process `self` with the children `pending` to wait for, and of all processes
below it, where `n` is the next number of a process before and `m` behind them. -/
inductive Tidy : Caller → List Pid → Pid → List Event → Pid → Prop where
  | done {self n} : Tidy self [] n [] n
  | call {self pending n e es m} (own : e.caller = self) (plain : e.IsPlain) (noWait : e.NoWait)
      (rest : Tidy self pending n es m) : Tidy self pending n (e :: es) m
  | wait {self pending n e pid es m} (own : e.caller = self) (plain : e.IsPlain)
      (heard : e.Heard pid) (child : pid ∈ pending) (rest : Tidy self (pending.erase pid) n es m) :
      Tidy self pending n (e :: es) m
  | child {self pending n k m code body es} (inner : Tidy (some n) [] (n + 1) body k)
      (rest : Tidy self (n :: pending) k es m) :
      Tidy self pending n (.started self n :: (body ++ .ended n code :: es)) m

/-! ### Runs are tidy -/

/-- Waiting for a child whose code is known fails only if the world lets it fail. -/
theorem Recorder.wait_heard (r : Recorder) (self : Caller) (pid : Pid)
    (known : (r.codes.lookup pid).isSome) :
    (Event.mk self (.wait pid (r.wait pid).1) (r.entry .wait (.wait pid))).Heard pid := by
  rcases hw : r.world.fault? .wait (r.attempts .wait) with _ | e
  · -- the look-up finds the code, so there is a status, of an exit or of a kill
    refine .inl ⟨by simp [entry, hw], ?_⟩
    obtain ⟨code, hcode⟩ := Option.isSome_iff_exists.1 known
    have hrecord : ∀ call, (r.record call).codes = r.codes := fun _ => rfl
    simp only [wait, attempt, hw]
    simp only [record, hcode]
    split
    · exact ⟨_, rfl⟩
    · exact ⟨_, rfl⟩
  · refine .inr ⟨e, by simp [entry, hw], ?_⟩
    simp [wait, attempt, hw]

/-- No call of another kind is recorded as a wait, whether or not it fails. -/
theorem Recorder.entry_ne_wait {r : Recorder} {kind : CallKind} {call : Call}
    (h : ∀ pid, call ≠ .wait pid) (pid : Pid) : r.entry kind call ≠ .wait pid := by
  unfold Recorder.entry
  split
  · simp
  · exact h pid

/-- A call that returns at once either waits for a child or leaves the children as they are. -/
theorem Step.reaps {self : Caller} {p p' : Process} {r r' : Recorder} {es : List Event}
    {pending : List Pid} (h : Step self p r es p' r') (reaps : p.Reaps pending) :
    (∃ pid, pid ∈ pending ∧ p'.Reaps (pending.erase pid) ∧
        es = [⟨self, .wait pid (r.wait pid).1, some (r.entry .wait (.wait pid))⟩]) ∨
      (p'.Reaps pending ∧ ∀ e ∈ es, e.NoWait) := by
  cases h
  case wait pid next => exact .inl ⟨pid, reaps.1, reaps.2 _, rfl⟩
  all_goals refine .inr ⟨?_, ?_⟩
  case forkFailed.refine_1 => exact reaps.2.1 _
  case execFailed.refine_1 => exact reaps.2 _
  case note.refine_1 => exact reaps
  case report.refine_1 => exact reaps
  case pipe.refine_1 | dup2.refine_1 | close.refine_1 | openFile.refine_1 => exact reaps _
  -- what is left is that the one event, if there is one, is no wait
  case report.refine_2 => simp
  all_goals
    intro e he
    rw [List.mem_singleton] at he
    subst he
    refine ⟨by simp, fun pid => ?_⟩
  case forkFailed.refine_2 | note.refine_2 => simp
  all_goals
    simp only [ne_eq, Option.some.injEq]
    exact Recorder.entry_ne_wait (by simp) pid

/-- What is known of children that are to be waited for stays known. -/
theorem known_of_suffix {codes codes' : List (Pid × Int)} (h : codes <:+ codes') {pid : Pid}
    (known : (codes.lookup pid).isSome) : (codes'.lookup pid).isSome := by
  obtain ⟨new, rfl⟩ := h
  induction new with
  | nil => exact known
  | cons entry new ih =>
    rw [List.cons_append, List.lookup_cons]
    split
    · rfl
    · exact ih

/-- Calls of the process itself that are no waits keep a trace tidy. -/
theorem Tidy.calls {self : Caller} {pending : List Pid} {n m : Pid} {es es' : List Event}
    (h : Tidy self pending n es' m) (own : ∀ e ∈ es, e.caller = self ∧ e.IsPlain)
    (noWait : ∀ e ∈ es, e.NoWait) : Tidy self pending n (es ++ es') m := by
  induction es with
  | nil => exact h
  | cons e es ih =>
    obtain ⟨hown, howns⟩ := List.forall_mem_cons.1 own
    obtain ⟨hwait, hwaits⟩ := List.forall_mem_cons.1 noWait
    exact .call hown.1 hown.2 hwait (ih howns hwaits)

/-- **Runs are tidy.** A process that reaps, and of whose children the recorder knows the codes,
has a tidy trace. -/
theorem Runs.tidy {self : Caller} {p : Process} {r r' : Recorder} {es : List Event} {code : Int}
    {pending : List Pid} (h : Runs self p r es code r') (reaps : p.Reaps pending)
    (known : ∀ pid ∈ pending, (r.codes.lookup pid).isSome) :
    Tidy self pending r.nextPid es r'.nextPid := by
  -- Along the run, what the recorder knows grows by the children that end; it is what makes the
  -- waits of the rest succeed.
  induction h generalizing pending with
  | exit =>
    cases (show pending = [] from reaps)
    exact .done
  | @exec self argv next r code r' h =>
    cases (show pending = [] from reaps.1)
    have adds := r.exec_adds argv
    rw [h] at adds
    rw [adds.nextPid]
    refine .call rfl (by apply Event.isPlain_entry <;> simp) ⟨by simp, fun pid => ?_⟩ .done
    simp only [ne_eq, Option.some.injEq]
    exact Recorder.entry_ne_wait (by simp) pid
  | @step self p r es p' r' es' code r'' first rest ih =>
    obtain ⟨hpid, hcodes⟩ := first.nextPid
    rcases first.reaps reaps with ⟨pid, hmem, hreaps, rfl⟩ | ⟨hreaps, noWait⟩
    · -- the call is a wait, for a child whose code is known
      have plain := (first.plain _ (List.mem_singleton_self _)).2
      refine .wait rfl plain (r.wait_heard self pid (known pid hmem)) hmem ?_
      rw [← hpid]
      exact ih hreaps fun x hx => hcodes ▸ known x (List.mem_of_mem_erase hx)
    · have htail := ih hreaps fun x hx => hcodes ▸ known x hx
      rw [hpid] at htail
      exact htail.calls first.plain noWait
  | @fork self child next r pid r₁ body c r₂ es code r' begun inner rest ihi ihr =>
    obtain ⟨rfl, hnext, hcodes, -⟩ := Recorder.beginFork_ok begun self
    have hinner := ihi reaps.1 (by simp)
    rw [hnext] at hinner
    -- behind the block the child is one more to wait for, and its code is known
    refine .child hinner (ihr (reaps.2.2 _) fun x hx => ?_)
    have hsuffix : r₁.codes <:+ (r₂.endFork r.nextPid c).codes :=
      inner.follows.codes.trans (List.suffix_cons _ _)
    rcases List.mem_cons.1 hx with rfl | hx
    · simp [Recorder.endFork, Recorder.record]
    · exact known_of_suffix hsuffix (hcodes ▸ known x hx)

end LineShell
