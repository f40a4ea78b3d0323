import LineShell.Word
import LineShell.Session
import LineShell.Process
import LineShell.File.Path

namespace LineShell

/-!
# Builtins

Some lines are for the shell itself.  They are told by their first word as it stands, before the
line is read as a command, and start no process.

* `Builtin`, `Builtin.ofLine?` — the builtins, and the one that a line asks for.
* `directoryWanted` — the directory that `cd` is to enter.
* `CdError` — why the working directory stays as it is.
-/

/-- What a line can ask of the shell itself. -/
inductive Builtin where
  /-- Move the working directory; the text holds the arguments. -/
  | changeDirectory (arguments : List Char)
  /-- Leave the shell. -/
  | quit
  deriving DecidableEq

/-- The text of a line up to its first blank, and the text from there on. -/
def headAndRest (line : List Char) : List Char × List Char :=
  line.span fun c => !isBlank c

/-- The builtin that a line asks for. -/
def Builtin.ofLine? (line : String) : Option Builtin :=
  let (head, rest) := headAndRest (trimBlanks line).toList
  let name := String.ofList head
  if name = "cd" then some (.changeDirectory rest)
  else if (name = "quit" ∨ name = "exit") ∧ stripEnds isBlank rest = [] then some .quit
  else none

/-- Why the working directory stays as it is. -/
inductive CdError where
  /-- The arguments hold an open quote. -/
  | badArguments (error : ParseError)
  /-- There is more than one argument. -/
  | tooManyArguments
  /-- The directory could not be entered. -/
  | refused (target : String) (fault : PathFault)
  deriving DecidableEq

/-- The kind of a failed change of directory. -/
def CdError.kind : CdError → String
  | .badArguments _ | .tooManyArguments => "InvalidInput"
  | .refused _ fault => fault.kind

/-- The wording of a failed change of directory. -/
def CdError.message : CdError → String
  | .badArguments error => error.message
  | .tooManyArguments => "cd: too many arguments"
  | .refused target fault => "cd: " ++ target ++ ": " ++ fault.message

/-- The directory that `cd` is to enter: home when there is no argument. -/
def directoryWanted (home : String) (arguments : List Char) : Except CdError String :=
  match words arguments with
  | .error e => .error (.badArguments e)
  | .ok [] => .ok home
  | .ok [directory] => .ok (Path.underHome home directory)
  | .ok (_ :: _ :: _) => .error .tooManyArguments

variable {σ : Type} [System σ]

/-- Moves the working directory as the arguments of `cd` ask. -/
def enterDirectory (home : String) (arguments : List Char) (s : σ) : Except CdError Unit × σ :=
  match directoryWanted home arguments with
  | .error e => (.error e, s)
  | .ok target =>
    match System.changeDirectory target (System.note (.changingDirectory target) s) with
    | (.ok _, s) => (.ok (), s)
    | (.error fault, s) => (.error (.refused target fault), s)

end LineShell
