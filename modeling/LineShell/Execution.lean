import LineShell.Session
import LineShell.Process

namespace LineShell

/-!
# Running commands

Every node of a command is realized by a process of its own: the shell starts one child for a
line, and all else runs in descendants of that child, so no failure below can take the shell with
it.

* `attach`, `openOnto` — how a child gets its standard streams.
* `Command.process` — the process that realizes a command.
* `execute` — a command run from the shell.
-/

/-! ### Standard streams of a child -/

/-- Moves a descriptor to the place of a standard stream, unless it is there already. -/
def moveTo (source target : Descriptor) (next : Process) : Process :=
  if source = target then next
  else
    .dup2 source target fun
      | .error e => .fail (.call .dup2 e)
      | .ok _ =>
        .close source fun
          | .error e => .fail (.call .close e)
          | .ok _ => next

/-- Drops the end of a pipe that is not used and moves the other to the place of a standard
stream. -/
def attach (unused used target : Descriptor) (next : Process) : Process :=
  .close unused fun
    | .error e => .fail (.call .close e)
    | .ok _ => moveTo used target next

/-- Opens the file of a redirect in the place of the standard stream that it rebinds. -/
def openOnto (path : String) (direction : Direction) (next : Process) : Process :=
  .openFile path direction fun
    | .error e => .fail (.file path direction e)
    | .ok descriptor => moveTo descriptor direction.stream next

/-! ### Nodes of a command -/

/-- Closes a descriptor; a failure is only recorded. -/
def closeEnd (descriptor : Descriptor) (next : Process) : Process :=
  .close descriptor fun
    | .error e => .note (.closeFailed descriptor e) next
    | .ok _ => next

/-- Closes both ends of a pipe. -/
def closeEnds (ends : PipeEnds) (next : Process) : Process :=
  closeEnd ends.read (closeEnd ends.write next)

/-- Records the end of a child that did not succeed. -/
def noteEnd (status : ChildStatus) (next : Process) : Process :=
  if status.isSuccess then next else .note (.abnormalEnd status) next

/-- The words that a program is started with: aliases replaced and blank words dropped. -/
def launchWords (aliases : AliasTable) (argv : List String) : List String :=
  (aliases.expand argv).filter fun word => !isAllSpaces word

/-- There are no words to start a program with when the aliases leave only blank ones. -/
theorem launchWords_eq_nil_iff {aliases : AliasTable} {argv : List String} :
    launchWords aliases argv = [] ↔ (aliases.expand argv).all isAllSpaces = true := by
  simp [launchWords]

/-- Lets a program take the place of the process. -/
def launch (aliases : AliasTable) (argv : List String) : Process :=
  match launchWords aliases argv with
  | [] => .fail .emptyCommand
  | program :: arguments =>
    .note (.launching (program :: arguments)) <|
      .exec (program :: arguments) fun e => .fail (.exec program e)

/-- Waits for the only child that a pipe got to start, and fails for want of the other. -/
def abandonPipe (left : Pid) (errno : Errno) : Process :=
  .wait left fun
    | .error _ => .fail (.call .fork errno)
    | .ok status => noteEnd status (.fail (.call .fork errno))

/-- Waits for both sides of a pipe and ends as they ended. -/
def awaitPipe (left right : Pid) : Process :=
  .wait left fun leftResult =>
    .wait right fun rightResult =>
      match leftResult, rightResult with
      | .error e, _ => .fail (.call .waitpid e)
      | .ok _, .error e => .fail (.call .waitpid e)
      | .ok leftStatus, .ok rightStatus =>
        noteEnd leftStatus <| noteEnd rightStatus <|
          .exit (leftStatus.combine rightStatus).code

/-- Waits for the child of a redirect and ends as it ended. -/
def awaitRedirect (pid : Pid) : Process :=
  .wait pid fun
    | .error e => .fail (.call .waitpid e)
    | .ok status => noteEnd status (.exit status.code)

/-- The process that realizes a command. -/
def Command.process (aliases : AliasTable) : Command → Process
  | .exec argv => launch aliases argv
  | .pipe left right =>
    .pipe fun
      | .error e => .fail (.call .pipe e)
      | .ok ends =>
        .fork (attach ends.read ends.write standardOutput (left.process aliases)) fun
          | .error e => closeEnds ends (.fail (.call .fork e))
          | .ok leftPid =>
            .fork (attach ends.write ends.read standardInput (right.process aliases))
              fun result =>
                closeEnds ends <|
                  match result with
                  | .error e => abandonPipe leftPid e
                  | .ok rightPid => .note (.pipeStarted leftPid rightPid) (awaitPipe leftPid rightPid)
  | .redirect inner direction path =>
    .fork (openOnto path direction (inner.process aliases)) fun
      | .error e => .fail (.call .fork e)
      | .ok pid => .note (.redirectStarted pid direction path) (awaitRedirect pid)

/-! ### From the shell -/

variable {σ : Type} [System σ]

/-- Waits for the process of a line. -/
def awaitLine (pid : Pid) (s : σ) : Except Failure ChildStatus × σ :=
  match System.wait pid s with
  | (.error e, s) => (.error (.call .waitpid e), s)
  | (.ok status, s) => (.ok status, System.note (.lineEnded status) s)

/-- Runs a command from the shell.  The command of a blank line is none to run. -/
def execute (session : Session) (command : Command) (s : σ) :
    Except Failure (Option ChildStatus) × σ :=
  if command.isEmpty then (.ok none, System.note .blankCommand s)
  else
    match System.fork (command.process session.aliases) (System.note (.executing command) s) with
    | (.error e, s) => (.error (.call .fork e), s)
    | (.ok pid, s) =>
      let ended := awaitLine pid (System.note (.lineStarted pid) s)
      (ended.1.map some, ended.2)

end LineShell
