import LineShell.Notice

namespace LineShell

/-!
# Processes

A process before a program takes its place is a tree of system calls: each call has a result, and
the result decides how the process goes on.  What the calls do is left to the system the process
runs on.

* `Process` — the tree.
* `Process.fail` — a process that reports a failure and ends with its code.
* `System` — a system on which the shell starts processes, waits for them, has a working directory
  and keeps a log.
-/

/-- The two ends of a pipe. -/
structure PipeEnds where
  read : Descriptor
  write : Descriptor
  deriving DecidableEq

/-- The descriptor of standard input. -/
def standardInput : Descriptor := 0

/-- The descriptor of standard output. -/
def standardOutput : Descriptor := 1

/-- The descriptor of standard error. -/
def standardError : Descriptor := 2

/-- The standard stream that a redirect rebinds. -/
def Direction.stream : Direction → Descriptor
  | .input => standardInput
  | .output => standardOutput

/-- What a process does, call by call. -/
inductive Process where
  /-- Ends with a code. -/
  | exit (code : Int)
  /-- Starts a child. -/
  | fork (child : Process) (next : Except Errno Pid → Process)
  /-- Makes a pipe. -/
  | pipe (next : Except Errno PipeEnds → Process)
  /-- Lets `target` refer to what `source` refers to. -/
  | dup2 (source target : Descriptor) (next : Except Errno Unit → Process)
  /-- Closes a descriptor. -/
  | close (descriptor : Descriptor) (next : Except Errno Unit → Process)
  /-- Opens a file for reading, or for writing from an empty start. -/
  | openFile (path : String) (direction : Direction) (next : Except Errno Descriptor → Process)
  /-- Lets a program take the place of the process; goes on only when that fails. -/
  | exec (argv : List String) (next : Errno → Process)
  /-- Waits until a child has ended. -/
  | wait (pid : Pid) (next : Except Errno ChildStatus → Process)
  /-- Adds a record to the log. -/
  | note (notice : Notice) (next : Process)
  /-- Tells the user of a failure. -/
  | report (failure : Failure) (next : Process)

/-- Reports a failure and ends with its code. -/
def Process.fail (failure : Failure) : Process :=
  .note (.failed failure) (.report failure (.exit failure.exitCode))

/-- Why a directory could not be entered. -/
inductive PathFault where
  /-- The system refused. -/
  | system (errno : Errno)
  /-- No path holds the character U+0000. -/
  | nulInPath
  deriving DecidableEq

/-- The wording of a refused path. -/
def PathFault.message : PathFault → String
  | .system errno => errno.systemMessage
  | .nulInPath => "file name contained an unexpected NUL byte"

/-- The kind of failure of a refused path. -/
def PathFault.kind : PathFault → String
  | .system errno => errno.kind
  | .nulInPath => "InvalidInput"

/-- A system on which the shell runs its commands. -/
class System (σ : Type) where
  /-- Starts a process. -/
  fork : Process → σ → Except Errno Pid × σ
  /-- Waits until a child has ended. -/
  wait : Pid → σ → Except Errno ChildStatus × σ
  /-- Moves the working directory of the shell. -/
  changeDirectory : String → σ → Except PathFault Unit × σ
  /-- Adds a record to the log. -/
  note : Notice → σ → σ

end LineShell
