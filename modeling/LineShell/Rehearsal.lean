import LineShell.Process

namespace LineShell

/-!
# Rehearsals

A rehearsal performs nothing and records every system call.  A child runs to its end while its
parent waits in `fork`, so the record reads as a walk through the tree of processes.  The world of
a rehearsal says how programs end and which calls fail.

* `World` — how the calls of a rehearsal turn out.
* `Call` — an entry of the record.
* `Recorder` — the record and the numbers to be handed out next.
* `Process.rehearse` — a process run on a recorder.
-/

/-! ### Worlds -/

/-- The calls that a world can let fail. -/
inductive CallKind where
  | pipe
  | dup2
  | close
  | openFile
  | exec
  | wait
  deriving DecidableEq

/-- The name of a kind of call. -/
def CallKind.name : CallKind → String
  | .pipe => "pipe"
  | .dup2 => "dup2"
  | .close => "close"
  | .openFile => "open"
  | .exec => "exec"
  | .wait => "wait"

/-- One call that fails: the call of a kind with the given number, counted from zero. -/
structure Fault where
  kind : CallKind
  nth : Nat
  errno : Errno
  deriving DecidableEq

/-- How the calls of a rehearsal turn out. -/
structure World where
  /-- Programs that cannot be found. -/
  missingPrograms : List String := []
  /-- Files that cannot be read. -/
  missingFiles : List String := []
  /-- The codes that programs end with, zero where none is given. -/
  exitCodes : List (String × Int) := []
  /-- The number of the fork that fails. -/
  failingFork : Option Nat := none
  /-- Other calls that fail. -/
  faults : List Fault := []
  /-- Processes that are reported as killed. -/
  signals : List (Pid × Signal) := []
  /-- Descriptors that opening returns, by the number of the call. -/
  openDescriptors : List (Nat × Descriptor) := []
  /-- Descriptors that pipes return, by the number of the call. -/
  pipeDescriptors : List (Nat × PipeEnds) := []

/-- The failure of the call of a kind with a number, if there is one. -/
def World.fault? (world : World) (kind : CallKind) (nth : Nat) : Option Errno :=
  (world.faults.find? fun f => f.kind == kind && f.nth == nth).map (·.errno)

/-- The code that a program ends with. -/
def World.exitCode (world : World) (program : String) : Int :=
  (world.exitCodes.lookup program).getD 0

/-! ### Recorders -/

/-- An entry of the record. -/
inductive Call where
  /-- A child starts. -/
  | fork (pid : Pid)
  /-- A child has ended. -/
  | exit (pid : Pid) (code : Int)
  | pipe (ends : PipeEnds)
  | dup2 (source target : Descriptor)
  | close (descriptor : Descriptor)
  | openFile (path : String) (direction : Direction)
  | exec (argv : List String)
  | wait (pid : Pid)
  /-- No child could be started. -/
  | forkFailed
  /-- A call failed because the world says so. -/
  | fault (kind : CallKind) (errno : Errno)
  deriving DecidableEq

/-- The record of a rehearsal and the numbers to be handed out next. -/
structure Recorder where
  world : World
  /-- The calls made so far, in order. -/
  calls : List Call := []
  /-- The log, in order. -/
  notices : List Notice := []
  nextPid : Pid := 100
  nextDescriptor : Descriptor := 10
  /-- How many children were asked for. -/
  forks : Nat := 0
  /-- How many calls of each other kind were tried. -/
  attempts : CallKind → Nat := fun _ => 0
  /-- The codes of the children that have ended, the latest first. -/
  codes : List (Pid × Int) := []

namespace Recorder

/-- Adds a call to the record. -/
def record (r : Recorder) (call : Call) : Recorder :=
  { r with calls := r.calls ++ [call] }

/-- Adds a record to the log. -/
def note (r : Recorder) (notice : Notice) : Recorder :=
  { r with notices := r.notices ++ [notice] }

/-- Counts a call of a kind and tells whether the world lets it fail. -/
def attempt (r : Recorder) (kind : CallKind) : Option Errno × Recorder :=
  let nth := r.attempts kind
  let counted := { r with attempts := fun k => if k = kind then nth + 1 else r.attempts k }
  match r.world.fault? kind nth with
  | some e => (some e, counted.record (.fault kind e))
  | none => (none, counted)

/-- Starts a child, unless this is the fork that fails. -/
def beginFork (r : Recorder) : Except Errno Pid × Recorder :=
  let counted := { r with forks := r.forks + 1 }
  if r.world.failingFork = some r.forks then (.error .eagain, counted.record .forkFailed)
  else
    (.ok r.nextPid, { counted with nextPid := r.nextPid + 1 }.record (.fork r.nextPid))

/-- Records the end of a child. -/
def endFork (r : Recorder) (pid : Pid) (code : Int) : Recorder :=
  { r with codes := (pid, code) :: r.codes }.record (.exit pid code)

/-- Makes a pipe of two fresh descriptors; the world may have other numbers returned. -/
def pipe (r : Recorder) : Except Errno PipeEnds × Recorder :=
  let nth := r.attempts .pipe
  match r.attempt .pipe with
  | (some e, r) => (.error e, r)
  | (none, r) =>
    let ends : PipeEnds := ⟨r.nextDescriptor, r.nextDescriptor + 1⟩
    (.ok ((r.world.pipeDescriptors.lookup nth).getD ends),
      { r with nextDescriptor := r.nextDescriptor + 2 }.record (.pipe ends))

/-- Records a call that gives nothing back. -/
def plainCall (r : Recorder) (kind : CallKind) (call : Call) : Except Errno Unit × Recorder :=
  match r.attempt kind with
  | (some e, r) => (.error e, r)
  | (none, r) => (.ok (), r.record call)

/-- Opens a file on a fresh descriptor; the world may have another number returned.  A missing
file takes no descriptor. -/
def openFile (r : Recorder) (path : String) (direction : Direction) :
    Except Errno Descriptor × Recorder :=
  let nth := r.attempts .openFile
  match r.attempt .openFile with
  | (some e, r) => (.error e, r)
  | (none, r) =>
    let r := r.record (.openFile path direction)
    if direction = .input ∧ path ∈ r.world.missingFiles then (.error .enoent, r)
    else
      (.ok ((r.world.openDescriptors.lookup nth).getD r.nextDescriptor),
        { r with nextDescriptor := r.nextDescriptor + 1 })

/-- Tries to run a program; the answer is the code it will end with. -/
def exec (r : Recorder) (argv : List String) : Except Errno Int × Recorder :=
  match r.attempt .exec with
  | (some e, r) => (.error e, r)
  | (none, r) =>
    let r := r.record (.exec argv)
    let program := argv.headD ""
    if program ∈ r.world.missingPrograms then (.error .enoent, r)
    else (.ok (r.world.exitCode program), r)

/-- Tells how a child ended, which the world may present as a kill. -/
def wait (r : Recorder) (pid : Pid) : Except Errno ChildStatus × Recorder :=
  match r.attempt .wait with
  | (some e, r) => (.error e, r)
  | (none, r) =>
    let r := r.record (.wait pid)
    match r.codes.lookup pid with
    | none => (.error .echild, r)
    | some code =>
      match r.world.signals.lookup pid with
      | some signal => (.ok (.signaled pid signal), r)
      | none => (.ok (.exited pid code), r)

end Recorder

/-! ### Running a process -/

/-- Runs a process on a recorder; the answer is the code it ends with. -/
def Process.rehearse : Process → Recorder → Int × Recorder
  | .exit code, r => (code, r)
  | .fork child next, r =>
    match r.beginFork with
    | (.error e, r) => (next (.error e)).rehearse r
    | (.ok pid, r) =>
      let ended := child.rehearse r
      (next (.ok pid)).rehearse (ended.2.endFork pid ended.1)
  | .pipe next, r => (next r.pipe.1).rehearse r.pipe.2
  | .dup2 source target next, r =>
    let done := r.plainCall .dup2 (.dup2 source target)
    (next done.1).rehearse done.2
  | .close descriptor next, r =>
    let done := r.plainCall .close (.close descriptor)
    (next done.1).rehearse done.2
  | .openFile path direction next, r =>
    let done := r.openFile path direction
    (next done.1).rehearse done.2
  | .exec argv next, r =>
    match r.exec argv with
    | (.ok code, r) => (code, r)
    | (.error e, r) => (next e).rehearse r
  | .wait pid next, r =>
    let done := r.wait pid
    (next done.1).rehearse done.2
  | .note notice next, r => next.rehearse (r.note notice)
  | .report _ next, r => next.rehearse r

/-- Starts a child and runs it to its end. -/
def Recorder.fork (child : Process) (r : Recorder) : Except Errno Pid × Recorder :=
  match r.beginFork with
  | (.error e, r) => (.error e, r)
  | (.ok pid, r) =>
    let ended := child.rehearse r
    (.ok pid, ended.2.endFork pid ended.1)

end LineShell
