import LineShell.Command
import LineShell.Errno

namespace LineShell

/-!
# Failures inside a process

A process that runs a part of a command can fail before a program takes its place.  The failure
ends that process and no other.

* `SystemCall` — the calls that set processes up.
* `Failure` — why a process failed.
* `Failure.message`, `Failure.exitCode` — what it reports and how it ends.
-/

/-- The system calls that set a process up. -/
inductive SystemCall where
  | fork
  | pipe
  | dup2
  | close
  | waitpid
  deriving DecidableEq

/-- The name of a system call. -/
def SystemCall.name : SystemCall → String
  | .fork => "fork"
  | .pipe => "pipe"
  | .dup2 => "dup2"
  | .close => "close"
  | .waitpid => "waitpid"

/-- Why a process failed before a program took its place. -/
inductive Failure where
  /-- A call that sets the process up failed. -/
  | call (op : SystemCall) (errno : Errno)
  /-- The program could not be run. -/
  | exec (program : String) (errno : Errno)
  /-- The file of a redirect could not be opened. -/
  | file (path : String) (direction : Direction) (errno : Errno)
  /-- There was no program to run. -/
  | emptyCommand
  deriving DecidableEq

namespace Failure

/-- Why a program could not be run. -/
def execReason (errno : Errno) : String :=
  if errno = Errno.enoent then "command not found"
  else if errno = Errno.eacces then "permission denied"
  else errno.description

/-- The wording of a failure. -/
def message : Failure → String
  | .call op errno => op.name ++ " failed: " ++ errno.message
  | .exec program errno => program ++ ": " ++ execReason errno
  | .file path direction errno =>
    path ++ ": cannot open for " ++ direction.verb ++ ": " ++ errno.message
  | .emptyCommand => "empty command"

/-- The code that a failed process ends with. -/
def exitCode : Failure → Int
  | .call .. | .emptyCommand => 2
  | .exec _ errno => if errno = Errno.enoent then 127 else 126
  | .file .. => 1

end Failure

end LineShell
