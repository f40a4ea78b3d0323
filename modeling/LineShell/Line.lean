import LineShell.Builtin
import LineShell.Command.Reader
import LineShell.Execution

namespace LineShell

/-!
# Lines

* `LineOutcome` — what becomes of a line.
* `evaluate` — a line taken in: builtins first, then reading, then running.  A builtin and a
  rejected line start no process.
-/

/-- What becomes of a line. -/
inductive LineOutcome where
  /-- There was nothing to do. -/
  | blank
  /-- The shell did what a builtin asks. -/
  | handled
  /-- The user wants to leave. -/
  | quit
  /-- A builtin failed. -/
  | builtinFailed (error : CdError)
  /-- The line describes no command. -/
  | rejected (error : ParseError)
  /-- The process of the line could not be started or waited for. -/
  | notRun (failure : Failure)
  /-- The process of the line ended. -/
  | finished (status : ChildStatus)
  deriving DecidableEq

variable {σ : Type} [System σ]

/-- Does what a builtin asks. -/
def runBuiltin (session : Session) (builtin : Builtin) (s : σ) : LineOutcome × σ :=
  match builtin with
  | .quit => (.quit, s)
  | .changeDirectory arguments =>
    match enterDirectory session.home arguments s with
    | (.ok _, s) => (.handled, s)
    | (.error e, s) => (.builtinFailed e, s)

/-- Reads a line as a command and runs it. -/
def runCommandLine (session : Session) (line : String) (s : σ) : LineOutcome × σ :=
  match Command.ofLine line with
  | .error e => (.rejected e, System.note (.rejected line e) s)
  | .ok command =>
    match execute session command (System.note (.accepted command) s) with
    | (.ok (some status), s) => (.finished status, s)
    | (.ok none, s) => (.blank, s)
    | (.error failure, s) => (.notRun failure, System.note (.lineFailed failure) s)

/-- Takes a line in. -/
def evaluate (session : Session) (line : String) (s : σ) : LineOutcome × σ :=
  let line := trimBlanks line
  if line.isEmpty then (.blank, s)
  else
    match Builtin.ofLine? line with
    | some builtin => runBuiltin session builtin s
    | none => runCommandLine session line s

end LineShell
