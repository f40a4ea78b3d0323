import LineShell.Proofs.Discipline
import LineShell.Proofs.Trace.Conduct
import LineShell.Proofs.Trace.Line

namespace LineShell

/-!
# Processes that account for their descriptors

Which descriptors a process holds besides its standard streams shows from its tree of calls alone,
and so does what becomes of the pipe that it makes.

* `Process.Keeps` — a process that uses and closes only what it holds, and that holds nothing while
  it waits.
* `Command.process_keeps` — the process of every command does so, and its descendants do.
* `Process.Clears`, `Process.Settles` — a process that closes both ends of the pipe that it makes.
* `Cleared`, `Process.Conduct.settled` — what this says of the calls that such a process makes.
-/

/-! ### Descriptors held -/

/-- The process holds the descriptors `held` besides its standard streams.  It moves and closes
nothing but what it holds, and closes nothing twice; it moves to standard input or output only, and
it holds nothing when it makes descriptors or waits.  The same is said of all that descend from it,
which inherit what it holds. -/
def Process.Keeps : List Descriptor → Process → Prop
  | _, .exit _ => True
  | held, .fork child next => child.Keeps held ∧ ∀ result, (next result).Keeps held
  | held, .pipe next =>
    held = [] ∧ (∀ e, (next (.error e)).Keeps []) ∧
      ∀ ends : PipeEnds, 3 ≤ ends.read → ends.read < ends.write →
        (next (.ok ends)).Keeps [ends.read, ends.write]
  | held, .dup2 source target next =>
    source ∈ held ∧ (target = standardInput ∨ target = standardOutput) ∧
      ∀ result, (next result).Keeps held
  | held, .close descriptor next =>
    -- also a descriptor that could not be closed is not to be closed again
    descriptor ∈ held ∧ ∀ result, (next result).Keeps (held.erase descriptor)
  | held, .openFile _ _ next =>
    held = [] ∧ (∀ e, (next (.error e)).Keeps []) ∧
      ∀ descriptor, 3 ≤ descriptor → (next (.ok descriptor)).Keeps [descriptor]
  | held, .exec _ next => ∀ e, (next e).Keeps held
  | held, .wait _ next => held = [] ∧ ∀ result, (next result).Keeps []
  | held, .note _ next => next.Keeps held
  | held, .report _ next => next.Keeps held

variable {next : Process} {held : List Descriptor}

/-- A process that fails uses no descriptor, whatever it holds. -/
theorem fail_keeps (failure : Failure) (held : List Descriptor) :
    (Process.fail failure).Keeps held := trivial

/-- Moving a descriptor to a standard stream uses it up: behind that nothing is held. -/
theorem moveTo_keeps {source target : Descriptor} (beyond : 3 ≤ source)
    (standard : target = standardInput ∨ target = standardOutput) (h : next.Keeps []) :
    (moveTo source target next).Keeps [source] := by
  have hne : source ≠ target := by
    rintro rfl
    rcases standard with rfl | rfl <;> exact absurd beyond (by decide)
  rw [moveTo, if_neg hne]
  refine ⟨List.mem_singleton_self source, standard, ?_⟩
  rintro (e | _)
  · exact fail_keeps _ _
  · refine ⟨List.mem_singleton_self source, ?_⟩
    rw [List.erase_cons_head]
    rintro (e | _)
    · exact fail_keeps _ _
    · exact h

/-- A child of a pipe holds both ends first, and neither behind its preparation. -/
theorem attach_keeps {unused used target : Descriptor} (mem : unused ∈ held)
    (left : held.erase unused = [used]) (beyond : 3 ≤ used)
    (standard : target = standardInput ∨ target = standardOutput) (h : next.Keeps []) :
    (attach unused used target next).Keeps held := by
  refine ⟨mem, ?_⟩
  rw [left]
  rintro (e | _)
  · exact fail_keeps _ _
  · exact moveTo_keeps beyond standard h

/-- The descriptor of a file is held only until it is moved. -/
theorem openOnto_keeps (path : String) (direction : Direction) (h : next.Keeps []) :
    (openOnto path direction next).Keeps [] := by
  refine ⟨rfl, fun e => fail_keeps _ _, fun descriptor beyond => moveTo_keeps beyond ?_ h⟩
  cases direction
  · exact .inl rfl
  · exact .inr rfl

/-- An end that is closed is held before and no longer behind. -/
theorem closeEnd_keeps (descriptor : Descriptor) (h : next.Keeps held) :
    (closeEnd descriptor next).Keeps (descriptor :: held) := by
  refine ⟨List.mem_cons_self, ?_⟩
  rw [List.erase_cons_head]
  rintro (e | _)
  · exact h
  · exact h

theorem closeEnds_keeps (ends : PipeEnds) (h : next.Keeps []) :
    (closeEnds ends next).Keeps [ends.read, ends.write] :=
  closeEnd_keeps ends.read (closeEnd_keeps ends.write h)

theorem noteEnd_keeps (status : ChildStatus) (h : next.Keeps held) :
    (noteEnd status next).Keeps held := by
  unfold noteEnd
  split
  · exact h
  · exact h

/-- A program is launched on the descriptors that are held. -/
theorem launch_keeps (aliases : AliasTable) (argv : List String) (held : List Descriptor) :
    (launch aliases argv).Keeps held := by
  unfold launch
  split
  · exact fail_keeps _ _
  · exact fun e => fail_keeps _ _

/-- The one child of a pipe that failed is waited for with nothing held. -/
theorem abandonPipe_keeps (left : Pid) (errno : Errno) : (abandonPipe left errno).Keeps [] := by
  refine ⟨rfl, ?_⟩
  rintro (e | status)
  · exact fail_keeps _ _
  · exact noteEnd_keeps status (fail_keeps _ _)

/-- The two sides of a pipe are waited for with nothing held. -/
theorem awaitPipe_keeps (left right : Pid) : (awaitPipe left right).Keeps [] := by
  refine ⟨rfl, fun leftResult => ⟨rfl, fun rightResult => ?_⟩⟩
  rcases leftResult with e | leftStatus
  · exact fail_keeps _ _
  · rcases rightResult with e | rightStatus
    · exact fail_keeps _ _
    · exact noteEnd_keeps leftStatus (noteEnd_keeps rightStatus trivial)

theorem awaitRedirect_keeps (pid : Pid) : (awaitRedirect pid).Keeps [] := by
  refine ⟨rfl, ?_⟩
  rintro (e | status)
  · exact fail_keeps _ _
  · exact noteEnd_keeps status trivial

/-- **Commands account for descriptors.** The process of a command starts with its standard streams
and accounts for all other descriptors, and so do its descendants. -/
theorem Command.process_keeps (aliases : AliasTable) (command : Command) :
    (command.process aliases).Keeps [] := by
  induction command with
  | exec argv => exact launch_keeps aliases argv []
  | pipe left right ihl ihr =>
    refine ⟨rfl, fun e => fail_keeps _ _, fun ends hread hlt => ?_⟩
    have hne : ends.read ≠ ends.write := by lia
    -- each child drops one of the two ends that it inherits and moves the other
    refine ⟨attach_keeps List.mem_cons_self (List.erase_cons_head ..) (by lia) (.inr rfl) ihl, ?_⟩
    rintro (e | leftPid)
    · exact closeEnds_keeps ends (fail_keeps _ _)
    refine ⟨attach_keeps (by simp) ?_ hread (.inl rfl) ihr, ?_⟩
    · rw [List.erase_cons_tail (by simpa using hne), List.erase_cons_head]
    · rintro (e | rightPid)
      · exact closeEnds_keeps ends (abandonPipe_keeps leftPid e)
      · exact closeEnds_keeps ends (awaitPipe_keeps leftPid rightPid)
  | redirect inner direction path ih =>
    refine ⟨openOnto_keeps path direction ih, ?_⟩
    rintro (e | pid)
    · exact fail_keeps _ _
    · exact awaitRedirect_keeps pid

/-- The shell holds nothing besides its standard streams. -/
theorem Process.ofLine_keeps (session : Session) (command : Command) :
    (Process.ofLine session command).Keeps [] := by
  unfold Process.ofLine
  split
  · trivial
  · refine ⟨command.process_keeps session.aliases, ?_⟩
    rintro (e | pid)
    · trivial
    · refine ⟨rfl, ?_⟩
      rintro (e | status) <;> trivial

/-! ### The ends of a pipe -/

/-- The process, which has the descriptors `owed` to close, closes each of them once, in order,
before it waits and before it ends; it closes nothing else and makes and moves no descriptor. -/
def Process.Clears : List Descriptor → Process → Prop
  | owed, .exit _ => owed = []
  | owed, .fork _ next => ∀ result, (next result).Clears owed
  | owed, .close descriptor next =>
    ∃ rest, owed = descriptor :: rest ∧ ∀ result, (next result).Clears rest
  | owed, .wait _ next => owed = [] ∧ ∀ result, (next result).Clears []
  | owed, .note _ next => next.Clears owed
  | owed, .report _ next => next.Clears owed
  | _, .pipe _ | _, .dup2 .. | _, .openFile .. | _, .exec .. => False

/-- The process itself closes both ends of each pipe that it makes, whatever happens in between. -/
def Process.Settles : Process → Prop
  | .exit _ => True
  | .fork _ next => ∀ result, (next result).Settles
  | .pipe next =>
    (∀ e, (next (.error e)).Settles) ∧ ∀ ends, (next (.ok ends)).Clears [ends.read, ends.write]
  | .dup2 _ _ next => ∀ result, (next result).Settles
  | .close _ next => ∀ result, (next result).Settles
  | .openFile _ _ next => ∀ result, (next result).Settles
  | .exec _ next => ∀ e, (next e).Settles
  | .wait _ next => ∀ result, (next result).Settles
  | .note _ next => next.Settles
  | .report _ next => next.Settles

variable {owed : List Descriptor}

/-- A process that fails has nothing left to close. -/
theorem fail_clears (failure : Failure) : (Process.fail failure).Clears [] := rfl

/-- An end that is closed is no longer owed, also when the system refuses to close it. -/
theorem closeEnd_clears (descriptor : Descriptor) (h : next.Clears owed) :
    (closeEnd descriptor next).Clears (descriptor :: owed) := by
  refine ⟨owed, rfl, ?_⟩
  rintro (e | _)
  · exact h
  · exact h

/-- Closing both ends of a pipe clears the two. -/
theorem closeEnds_clears (ends : PipeEnds) (h : next.Clears []) :
    (closeEnds ends next).Clears [ends.read, ends.write] :=
  closeEnd_clears ends.read (closeEnd_clears ends.write h)

theorem noteEnd_clears (status : ChildStatus) (h : next.Clears owed) :
    (noteEnd status next).Clears owed := by
  unfold noteEnd
  split
  · exact h
  · exact h

/-- The one child of a pipe that failed is waited for once nothing is owed. -/
theorem abandonPipe_clears (left : Pid) (errno : Errno) : (abandonPipe left errno).Clears [] := by
  refine ⟨rfl, ?_⟩
  rintro (e | status)
  · exact fail_clears _
  · exact noteEnd_clears status (fail_clears _)

/-- The two sides of a pipe are waited for once nothing is owed. -/
theorem awaitPipe_clears (left right : Pid) : (awaitPipe left right).Clears [] := by
  refine ⟨rfl, fun leftResult => ⟨rfl, fun rightResult => ?_⟩⟩
  rcases leftResult with e | leftStatus
  · exact fail_clears _
  · rcases rightResult with e | rightStatus
    · exact fail_clears _
    · exact noteEnd_clears leftStatus (noteEnd_clears rightStatus rfl)

/-- A process that fails makes no pipe. -/
theorem fail_settles (failure : Failure) : (Process.fail failure).Settles := trivial

/-- Calls that set up the standard streams have no part in the pipes of a process. -/
theorem settles_discipline : Process.Discipline Process.Settles where
  fail := fail_settles
  dup2 _ _ _ h := h
  close _ _ h := h
  openFile _ _ _ h := h

theorem noteEnd_settles (status : ChildStatus) (h : next.Settles) :
    (noteEnd status next).Settles := by
  unfold noteEnd
  split
  · exact h
  · exact h

/-- A process that launches a program makes no pipe. -/
theorem launch_settles (aliases : AliasTable) (argv : List String) :
    (launch aliases argv).Settles := by
  unfold launch
  split
  · exact fail_settles _
  · exact fun e => fail_settles _

/-- **Commands settle their pipes.** The process of a command closes both ends of the pipe that it
makes, also when a child cannot be started. -/
theorem Command.process_settles (aliases : AliasTable) (command : Command) :
    (command.process aliases).Settles := by
  cases command with
  | exec argv => exact launch_settles aliases argv
  | pipe left right =>
    refine ⟨fun e => fail_settles _, fun ends => ?_⟩
    rintro (e | leftPid)
    · exact closeEnds_clears ends (fail_clears _)
    · rintro (e | rightPid)
      · exact closeEnds_clears ends (abandonPipe_clears leftPid e)
      · exact closeEnds_clears ends (awaitPipe_clears leftPid rightPid)
  | redirect inner direction path =>
    rintro (e | pid)
    · exact fail_settles _
    · rintro (e | status)
      · exact fail_settles _
      · exact noteEnd_settles status trivial

/-- The shell makes no pipe. -/
theorem Process.ofLine_clears (session : Session) (command : Command) :
    (Process.ofLine session command).Clears [] := by
  unfold Process.ofLine
  split
  · exact rfl
  · rintro (e | pid)
    · exact rfl
    · refine ⟨rfl, ?_⟩
      rintro (e | status) <;> exact rfl

/-! ### What the calls show -/

/-- The descriptor that a call is to close. -/
def Action.closed? : Action → Option Descriptor
  | .close descriptor _ => some descriptor
  | _ => none

/-- The descriptors that calls are to close, also those that cannot be closed. -/
def closesOf (own : List Action) : List Descriptor :=
  own.filterMap Action.closed?

/-- Calls that close the descriptors `owed`, each once and nothing else, and that do so before any
wait; they make no pipe. -/
structure Cleared (owed : List Descriptor) (own : List Action) : Prop where
  closes : closesOf own = owed
  before_wait : ∀ before pid result after, own = before ++ .wait pid result :: after →
    closesOf before = owed
  no_pipe : ∀ result, .pipe result ∉ own

namespace Cleared

variable {own : List Action} {a : Action}

/-- Where nothing is owed no calls are needed. -/
theorem nil : Cleared [] [] where
  closes := rfl
  before_wait before pid result after h := by simp at h
  no_pipe := by simp

/-- A call that closes nothing and makes no pipe; a wait may stand here only where nothing is left
to close. -/
theorem cons (h : Cleared owed own) (quiet : a.closed? = none) (pipe : ∀ result, a ≠ .pipe result)
    (wait : ∀ pid result, a = .wait pid result → owed = []) : Cleared owed (a :: own) where
  closes := (List.filterMap_cons_none quiet).trans h.closes
  before_wait before pid result after heq := by
    rcases List.cons_eq_append_iff.1 heq with ⟨rfl, heq⟩ | ⟨before, rfl, rfl⟩
    · cases heq
      exact (wait pid result rfl).symm
    · exact (List.filterMap_cons_none quiet).trans (h.before_wait before pid result after rfl)
  no_pipe result hmem := by
    rcases List.mem_cons.1 hmem with rfl | hmem
    · exact pipe result rfl
    · exact h.no_pipe result hmem

/-- A call that closes a descriptor clears it, whatever it results in. -/
theorem close (h : Cleared owed own) (descriptor : Descriptor) (result : Except Errno Unit) :
    Cleared (descriptor :: owed) (.close descriptor result :: own) where
  closes := congrArg _ h.closes
  before_wait before pid result after heq := by
    rcases List.cons_eq_append_iff.1 heq with ⟨-, heq⟩ | ⟨before, rfl, rfl⟩
    · cases heq
    · exact congrArg _ (h.before_wait before pid result after rfl)
  no_pipe result hmem := by
    rcases List.mem_cons.1 hmem with heq | hmem
    · cases heq
    · exact h.no_pipe result hmem

end Cleared

/-- Calls that close both ends of each pipe that they make. -/
def Settled (own : List Action) : Prop :=
  ∀ before ends after, own = before ++ .pipe (.ok ends) :: after →
    Cleared [ends.read, ends.write] after

namespace Settled

variable {own : List Action} {a : Action}

/-- Without calls there is no pipe to settle. -/
theorem nil : Settled [] := fun before ends after h => by simp at h

/-- A call that makes no pipe may stand in front. -/
theorem cons (h : Settled own) (pipe : ∀ ends, a ≠ .pipe (.ok ends)) : Settled (a :: own) := by
  intro before ends after heq
  rcases List.cons_eq_append_iff.1 heq with ⟨-, heq⟩ | ⟨before, rfl, rfl⟩
  · cases heq
    exact absurd rfl (pipe ends)
  · exact h before ends after rfl

/-- Behind a pipe whose ends are closed no other one is made. -/
theorem pipe {ends : PipeEnds} (h : Cleared [ends.read, ends.write] own) :
    Settled (.pipe (.ok ends) :: own) := by
  intro before ends' after heq
  rcases List.cons_eq_append_iff.1 heq with ⟨-, heq⟩ | ⟨before, rfl, rfl⟩
  · cases heq
    exact h
  · exact absurd (List.mem_append_right _ List.mem_cons_self) (h.no_pipe (.ok ends'))

end Settled

namespace Process.Conduct

variable {p : Process} {own : List Action} {children : List (Pid × Process)} {code : Int}

/-- A process that has descriptors to close closes them on every way through its calls. -/
theorem cleared (h : p.Conduct own children code) (clears : p.Clears owed) :
    Cleared owed own := by
  induction h generalizing owed with
  | exit =>
    obtain rfl : owed = [] := clears
    exact .nil
  | exec => exact clears.elim
  | move first rest ih =>
    cases first with
    | forkFailed => exact (ih (clears _)).cons rfl (by simp) (by simp)
    | pipe => exact clears.elim
    | dup2 => exact clears.elim
    | close =>
      -- the next descriptor that is owed, and no other one
      obtain ⟨left, rfl, clears⟩ := clears
      exact (ih (clears _)).close _ _
    | openFile => exact clears.elim
    | execFailed => exact clears.elim
    | wait =>
      -- a wait comes only when nothing is owed any more
      obtain ⟨rfl, clears⟩ := clears
      exact (ih (clears _)).cons rfl (by simp) (by simp)
    | note => exact (ih clears).cons rfl (by simp) (by simp)
    | report => exact ih clears
  | fork rest ih => exact (ih (clears _)).cons rfl (by simp) (by simp)

/-- **Pipes are settled.** A process that settles its pipes closes, on every way through its tree of
calls, both ends of each pipe that it makes. -/
theorem settled (h : p.Conduct own children code) (settles : p.Settles) : Settled own := by
  induction h with
  | exit => exact .nil
  | exec => exact Settled.nil.cons (by simp)
  | move first rest ih =>
    cases first with
    | @pipe next result =>
      rcases result with e | ends
      · exact (ih (settles.1 e)).cons (by simp)
      · exact .pipe (rest.cleared (settles.2 ends))
    | note => exact (ih settles).cons (by simp)
    | report => exact ih settles
    | _ => exact (ih (settles _)).cons (by simp)
  | fork rest ih => exact (ih (settles _)).cons (by simp)

end Process.Conduct

end LineShell
