import LineShell.Rehearsal

namespace LineShell

/-!
# Traces of a rehearsal

The record of a rehearsal is flat: it does not say which process made a call, and of a call that
the world lets fail it keeps the kind only.  A trace says both.

* `Event` — a call with its caller, its result and the entry it adds to the record.
* `Process.trace` — the events of a run of a process and of all that descend from it.
* `Runs` — the same as a relation, with one rule for all calls that return at once; the
  inductions over runs go over it.
* `runs_trace` — a rehearsal runs, with its trace, in the sense of the relation.
-/

/-! ### Events -/

/-- The process that makes a call: a forked one by its number, or the shell itself. -/
abbrev Caller := Option Pid

/-- A call with its arguments and what came of it. -/
inductive Action where
  | fork (result : Except Errno Pid)
  /-- The caller ends. -/
  | exit (code : Int)
  | pipe (result : Except Errno PipeEnds)
  | dup2 (source target : Descriptor) (result : Except Errno Unit)
  | close (descriptor : Descriptor) (result : Except Errno Unit)
  | openFile (path : String) (direction : Direction) (result : Except Errno Descriptor)
  /-- The result is the code that the program will end with. -/
  | exec (argv : List String) (result : Except Errno Int)
  | wait (pid : Pid) (result : Except Errno ChildStatus)
  /-- A record is added to the log. -/
  | note (notice : Notice)

/-- A call of a process. -/
structure Event where
  caller : Caller
  action : Action
  /-- The entry that the call adds to the record; a note adds none. -/
  entry : Option Call

/-- The start of a child. -/
def Event.started (parent : Caller) (child : Pid) : Event :=
  ⟨parent, .fork (.ok child), some (.fork child)⟩

/-- The end of a child. -/
def Event.ended (child : Pid) (code : Int) : Event :=
  ⟨some child, .exit code, some (.exit child code)⟩

/-- The events of a fork: the start of the child, what it and those below it do, its end, and what
the parent does then. -/
theorem mem_child {e : Event} {parent : Caller} {child : Pid} {body rest : List Event}
    {code : Int} :
    e ∈ Event.started parent child :: (body ++ .ended child code :: rest) ↔
      e = .started parent child ∨ e ∈ body ∨ e = .ended child code ∨ e ∈ rest := by
  rw [List.mem_cons, List.mem_append, List.mem_cons]

/-- The record of the log that an event adds. -/
def Event.notice? (e : Event) : Option Notice :=
  match e.action with
  | .note notice => some notice
  | _ => none

/-- The entry that a call of a kind adds to the record: the call, unless the world lets it fail. -/
def Recorder.entry (r : Recorder) (kind : CallKind) (call : Call) : Call :=
  match r.world.fault? kind (r.attempts kind) with
  | some e => .fault kind e
  | none => call

/-- The descriptors of the next pipe. -/
def Recorder.nextEnds (r : Recorder) : PipeEnds :=
  ⟨r.nextDescriptor, r.nextDescriptor + 1⟩

/-- The events of a run of a process, those of its descendants included. -/
def Process.trace (self : Caller) : Process → Recorder → List Event
  | .exit _, _ => []
  | .fork child next, r =>
    -- the child runs to its end before its parent goes on
    match r.beginFork with
    | (.error e, r') =>
      ⟨self, .fork (.error e), some .forkFailed⟩ :: (next (.error e)).trace self r'
    | (.ok pid, r') =>
      let ended := child.rehearse r'
      .started self pid :: (child.trace (some pid) r' ++
        .ended pid ended.1 :: (next (.ok pid)).trace self (ended.2.endFork pid ended.1))
  | .pipe next, r =>
    ⟨self, .pipe r.pipe.1, some (r.entry .pipe (.pipe r.nextEnds))⟩ ::
      (next r.pipe.1).trace self r.pipe.2
  | .dup2 source target next, r =>
    let done := r.plainCall .dup2 (.dup2 source target)
    ⟨self, .dup2 source target done.1, some (r.entry .dup2 (.dup2 source target))⟩ ::
      (next done.1).trace self done.2
  | .close descriptor next, r =>
    let done := r.plainCall .close (.close descriptor)
    ⟨self, .close descriptor done.1, some (r.entry .close (.close descriptor))⟩ ::
      (next done.1).trace self done.2
  | .openFile path direction next, r =>
    let done := r.openFile path direction
    ⟨self, .openFile path direction done.1,
        some (r.entry .openFile (.openFile path direction))⟩ ::
      (next done.1).trace self done.2
  | .exec argv next, r =>
    match r.exec argv with
    | (.ok code, _) => [⟨self, .exec argv (.ok code), some (r.entry .exec (.exec argv))⟩]
    | (.error e, r') =>
      ⟨self, .exec argv (.error e), some (r.entry .exec (.exec argv))⟩ ::
        (next e).trace self r'
  | .wait pid next, r =>
    let done := r.wait pid
    ⟨self, .wait pid done.1, some (r.entry .wait (.wait pid))⟩ :: (next done.1).trace self done.2
  | .note notice next, r => ⟨self, .note notice, none⟩ :: next.trace self (r.note notice)
  | .report _ next, r => next.trace self r

/-! ### Runs as a relation -/

/-- One call of a process that returns at once, or a report to the user, which makes no event. -/
inductive Step (self : Caller) : Process → Recorder → List Event → Process → Recorder → Prop where
  | forkFailed {child next r e r'} (h : r.beginFork = (.error e, r')) :
      Step self (.fork child next) r [⟨self, .fork (.error e), some .forkFailed⟩]
        (next (.error e)) r'
  | pipe {next r} :
      Step self (.pipe next) r [⟨self, .pipe r.pipe.1, some (r.entry .pipe (.pipe r.nextEnds))⟩]
        (next r.pipe.1) r.pipe.2
  | dup2 {source target next r} :
      Step self (.dup2 source target next) r
        [⟨self, .dup2 source target (r.plainCall .dup2 (.dup2 source target)).1,
          some (r.entry .dup2 (.dup2 source target))⟩]
        (next (r.plainCall .dup2 (.dup2 source target)).1)
        (r.plainCall .dup2 (.dup2 source target)).2
  | close {descriptor next r} :
      Step self (.close descriptor next) r
        [⟨self, .close descriptor (r.plainCall .close (.close descriptor)).1,
          some (r.entry .close (.close descriptor))⟩]
        (next (r.plainCall .close (.close descriptor)).1)
        (r.plainCall .close (.close descriptor)).2
  | openFile {path direction next r} :
      Step self (.openFile path direction next) r
        [⟨self, .openFile path direction (r.openFile path direction).1,
          some (r.entry .openFile (.openFile path direction))⟩]
        (next (r.openFile path direction).1) (r.openFile path direction).2
  | execFailed {argv next r e r'} (h : r.exec argv = (.error e, r')) :
      Step self (.exec argv next) r
        [⟨self, .exec argv (.error e), some (r.entry .exec (.exec argv))⟩] (next e) r'
  | wait {pid next r} :
      Step self (.wait pid next) r
        [⟨self, .wait pid (r.wait pid).1, some (r.entry .wait (.wait pid))⟩]
        (next (r.wait pid).1) (r.wait pid).2
  | note {notice next r} :
      Step self (.note notice next) r [⟨self, .note notice, none⟩] next (r.note notice)
  | report {failure next r} : Step self (.report failure next) r [] next r

/-- A process run by `self` on a recorder: its events, the code it ends with and the recorder
behind it. -/
inductive Runs : Caller → Process → Recorder → List Event → Int → Recorder → Prop where
  | exit {self code r} : Runs self (.exit code) r [] code r
  | exec {self argv next r code r'} (h : r.exec argv = (.ok code, r')) :
      Runs self (.exec argv next) r
        [⟨self, .exec argv (.ok code), some (r.entry .exec (.exec argv))⟩] code r'
  | step {self p r es p' r' es' code r''} (first : Step self p r es p' r')
      (rest : Runs self p' r' es' code r'') : Runs self p r (es ++ es') code r''
  | fork {self child next r pid r₁ body c r₂ es code r'} (begun : r.beginFork = (.ok pid, r₁))
      (inner : Runs (some pid) child r₁ body c r₂)
      (rest : Runs self (next (.ok pid)) (r₂.endFork pid c) es code r') :
      Runs self (.fork child next) r (.started self pid :: (body ++ .ended pid c :: es)) code r'

/-- Every process runs, with its trace, to the code and the recorder of its rehearsal. -/
theorem runs_trace (p : Process) (self : Caller) (r : Recorder) :
    Runs self p r (p.trace self r) (p.rehearse r).1 (p.rehearse r).2 := by
  -- Only a fork and an attempt to run a program have two ways to go on that are no continuation.
  induction p generalizing self r with
  | exit code => exact .exit
  | fork child next ihc ihn =>
    rcases h : r.beginFork with ⟨e | pid, r'⟩
    · simp only [Process.trace, Process.rehearse, h]
      exact .step (.forkFailed h) (ihn (.error e) self r')
    · simp only [Process.trace, Process.rehearse, h]
      exact .fork h (ihc (some pid) r') (ihn (.ok pid) self _)
  | pipe next ih => exact .step .pipe (ih _ self _)
  | dup2 source target next ih => exact .step .dup2 (ih _ self _)
  | close descriptor next ih => exact .step .close (ih _ self _)
  | openFile path direction next ih => exact .step .openFile (ih _ self _)
  | exec argv next ih =>
    rcases h : r.exec argv with ⟨e | code, r'⟩
    · simp only [Process.trace, Process.rehearse, h]
      exact .step (.execFailed h) (ih e self r')
    · simp only [Process.trace, Process.rehearse, h]
      exact .exec h
  | wait pid next ih => exact .step .wait (ih _ self _)
  | note notice next ih => exact .step .note (ih self _)
  | report failure next ih => exact .step .report (ih self r)

end LineShell
