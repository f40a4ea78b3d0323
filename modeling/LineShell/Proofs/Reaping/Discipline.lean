import LineShell.Proofs.Discipline
import LineShell.Proofs.Trace.Line

namespace LineShell

/-!
# Processes that wait for their children

Whether a process waits for all its children shows from its tree of calls alone, whatever the
calls result in.

* `Process.Reaps` — a process that waits once for each child that it started, and for no other.
* `Command.process_reaps` — the process of every command does so, and its descendants do.
-/

/-- The process, which has the children `pending` to wait for, waits for each of them once before
it ends, so do all that descend from it, and none waits for anything else. -/
def Process.Reaps : List Pid → Process → Prop
  | pending, .exit _ => pending = []
  | pending, .fork child next =>
    child.Reaps [] ∧ (∀ e, (next (.error e)).Reaps pending) ∧
      ∀ pid, (next (.ok pid)).Reaps (pid :: pending)
  | pending, .pipe next => ∀ result, (next result).Reaps pending
  | pending, .dup2 _ _ next => ∀ result, (next result).Reaps pending
  | pending, .close _ next => ∀ result, (next result).Reaps pending
  | pending, .openFile _ _ next => ∀ result, (next result).Reaps pending
  | pending, .exec _ next => pending = [] ∧ ∀ e, (next e).Reaps pending
  | pending, .wait pid next => pid ∈ pending ∧ ∀ result, (next result).Reaps (pending.erase pid)
  | pending, .note _ next => next.Reaps pending
  | pending, .report _ next => next.Reaps pending

variable {next : Process} {pending : List Pid}

/-! ### The parts of a process -/

/-- A process that fails has no child left to wait for. -/
theorem fail_reaps (failure : Failure) : (Process.fail failure).Reaps [] := rfl

/-- Getting its standard streams leaves a child with no children to wait for. -/
theorem reaps_discipline : Process.Discipline (Process.Reaps []) where
  fail := fail_reaps
  dup2 _ _ _ h := h
  close _ _ h := h
  openFile _ _ _ h := h

/-- Closing an end of a pipe leaves the children to be waited for. -/
theorem closeEnd_reaps (descriptor : Descriptor) (h : next.Reaps pending) :
    (closeEnd descriptor next).Reaps pending := by
  rintro (e | _)
  · exact h
  · exact h

theorem closeEnds_reaps (ends : PipeEnds) (h : next.Reaps pending) :
    (closeEnds ends next).Reaps pending :=
  closeEnd_reaps ends.read (closeEnd_reaps ends.write h)

theorem noteEnd_reaps (status : ChildStatus) (h : next.Reaps pending) :
    (noteEnd status next).Reaps pending := by
  unfold noteEnd
  split
  · exact h
  · exact h

/-- A process that launches a program has no child to wait for. -/
theorem launch_reaps (aliases : AliasTable) (argv : List String) :
    (launch aliases argv).Reaps [] := by
  unfold launch
  split
  · exact fail_reaps _
  · exact ⟨rfl, fun e => fail_reaps _⟩

/-- The one child of a pipe that failed is waited for. -/
theorem abandonPipe_reaps (left : Pid) (errno : Errno) : (abandonPipe left errno).Reaps [left] := by
  refine ⟨List.mem_singleton_self left, ?_⟩
  rw [List.erase_cons_head]
  rintro (e | status)
  · exact fail_reaps _
  · exact noteEnd_reaps status (fail_reaps _)

/-- Both sides of a pipe are waited for, also when the first wait fails. -/
theorem awaitPipe_reaps (left right : Pid) : (awaitPipe left right).Reaps [right, left] := by
  -- The right side may have the number of the left one: what is left to wait for is the same.
  have herase : [right, left].erase left = [right] := by
    by_cases h : right = left
    · subst h; exact List.erase_cons_head ..
    · rw [List.erase_cons_tail (by simpa using h), List.erase_cons_head]
  -- both waits are made before the first result is looked at
  refine ⟨by simp, fun leftResult => ?_⟩
  rw [herase]
  refine ⟨List.mem_singleton_self right, fun rightResult => ?_⟩
  rw [List.erase_cons_head]
  rcases leftResult with e | leftStatus
  · exact fail_reaps _
  · rcases rightResult with e | rightStatus
    · exact fail_reaps _
    · exact noteEnd_reaps leftStatus (noteEnd_reaps rightStatus rfl)

/-- The child of a redirect is waited for. -/
theorem awaitRedirect_reaps (pid : Pid) : (awaitRedirect pid).Reaps [pid] := by
  refine ⟨List.mem_singleton_self pid, ?_⟩
  rw [List.erase_cons_head]
  rintro (e | status)
  · exact fail_reaps _
  · exact noteEnd_reaps status rfl

/-! ### Whole processes -/

/-- **Commands reap.** The process of a command waits once for each child that it started, on
every path, and so do its descendants. -/
theorem Command.process_reaps (aliases : AliasTable) (command : Command) :
    (command.process aliases).Reaps [] := by
  induction command with
  | exec argv => exact launch_reaps aliases argv
  | pipe left right ihl ihr =>
    rintro (e | ends)
    · exact fail_reaps _
    -- the left child is started first; when the right one cannot be, it still is waited for
    refine ⟨reaps_discipline.attach _ _ _ ihl, fun e => closeEnds_reaps ends (fail_reaps _),
      fun leftPid => ?_⟩
    refine ⟨reaps_discipline.attach _ _ _ ihr, fun e => ?_, fun rightPid => ?_⟩
    · exact closeEnds_reaps ends (abandonPipe_reaps leftPid e)
    · exact closeEnds_reaps ends (awaitPipe_reaps leftPid rightPid)
  | redirect inner direction path ih =>
    exact ⟨reaps_discipline.openOnto path direction ih, fun e => fail_reaps _, awaitRedirect_reaps⟩

/-- The shell waits for the process of a line. -/
theorem Process.ofLine_reaps (session : Session) (command : Command) :
    (Process.ofLine session command).Reaps [] := by
  unfold Process.ofLine
  split
  · exact rfl
  · refine ⟨command.process_reaps session.aliases, fun e => rfl, fun pid => ?_⟩
    refine ⟨List.mem_singleton_self pid, ?_⟩
    rw [List.erase_cons_head]
    rintro (e | status)
    · exact rfl
    · exact rfl

end LineShell
