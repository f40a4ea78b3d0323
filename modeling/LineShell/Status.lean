import LineShell.Signal

namespace LineShell

/-!
# How processes end

* `Pid`, `Descriptor` — the numbers of processes and of their open files.
* `ChildStatus` — how a child ended.
* `WaitReport`, `ChildStatus.ofReport?` — what waiting can report, and the ends among that.
* `ChildStatus.combine` — the status of a pipe from those of its sides.
-/

/-- The number of a process. -/
abbrev Pid := Int

/-- The number of an open file of a process. -/
abbrev Descriptor := Int

/-- How a child ended. -/
inductive ChildStatus where
  | exited (pid : Pid) (code : Int)
  | signaled (pid : Pid) (signal : Signal)
  deriving DecidableEq

/-- What waiting for a child can report. -/
inductive WaitReport where
  | exited (pid : Pid) (code : Int)
  | signaled (pid : Pid) (signal : Signal) (core : Bool)
  | stopped (pid : Pid) (signal : Signal)
  | continued (pid : Pid)
  | stillAlive
  deriving DecidableEq

namespace ChildStatus

/-- A report as an end, if it is one: a child that only stopped or went on has not ended. -/
def ofReport? : WaitReport → Option ChildStatus
  | .exited pid code => some (.exited pid code)
  | .signaled pid signal _ => some (.signaled pid signal)
  | .stopped .. | .continued _ | .stillAlive => none

/-- The child that ended. -/
def pid : ChildStatus → Pid
  | .exited pid _ | .signaled pid _ => pid

/-- The exit code that stands for an end: a signal counts as 128 and its number. -/
def code : ChildStatus → Int
  | .exited _ code => code
  | .signaled _ signal => 128 + signal.number

/-- Whether the child ended by itself with code zero. -/
def isSuccess : ChildStatus → Bool
  | .exited _ code => code == 0
  | .signaled .. => false

/-- Whether the child lost its reader: it died of that signal, or a process between reported the
code that stands for it. -/
def isBrokenPipe (s : ChildStatus) : Bool :=
  s.code == 128 + Signal.sigpipe.number

/-- The status of a pipe.  A failing right side counts first, then a failing left side; a left
side that only lost its reader did not fail. -/
def combine (left right : ChildStatus) : ChildStatus :=
  if !right.isSuccess || left.isSuccess || left.isBrokenPipe then right else left

/-- The wording of an end. -/
def text : ChildStatus → String
  | .exited _ code => "exit " ++ toString code
  | .signaled _ signal => "killed by " ++ signal.name

end ChildStatus

end LineShell
