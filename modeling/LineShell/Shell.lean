import LineShell.Config
import LineShell.Console
import LineShell.History
import LineShell.Line
import LineShell.Theme

namespace LineShell

/-!
# The shell

The shell greets the user, takes lines in until the user leaves or the input ends, and says
goodbye.  No failure of a line ends it; that what was written cannot be written out does.

* `Shell` — what the shell keeps while it runs.
* `Shell.handle` — one line taken in.
* `Shell.loop` — lines taken in until the end.
* `Shell.run`, `Shell.exitCode` — a whole run, and the code it ends with.
-/

/-- What the shell keeps while it runs. -/
structure Shell where
  session : Session
  theme : Theme
  /-- Whether colours are on. -/
  colours : Bool
  historyFile : String

namespace Shell

variable {σ : Type} [Console σ]

/-! ### Messages -/

/-- Tells the user of an error. -/
def reportError (shell : Shell) (message : String) (s : σ) : σ :=
  Console.printError
    (Theme.errorSymbol shell.colours ++ " " ++ shell.theme.errorText shell.colours message ++ "\n") s

/-- Tells the user what became of a line, if that is worth telling. -/
def reportOutcome (shell : Shell) (outcome : LineOutcome) (s : σ) : σ :=
  match outcome with
  | .blank | .handled | .quit => s
  | .builtinFailed e => shell.reportError e.message s
  | .rejected e => shell.reportError ("parse error: " ++ e.message) s
  | .notRun failure => shell.reportError failure.message s
  | .finished status => if status.isSuccess then s else shell.reportError status.text s

/-- The prompt. -/
def prompt (shell : Shell) (s : σ) : String × σ :=
  let (directory, s) := showDirectory shell.session.home s
  let (user, host) := Console.identity s
  let text := Prompt.render ⟨user, Prompt.shortHost host, directory⟩
  (shell.theme.promptText shell.colours text, s)

/-! ### Lines -/

/-- Whether the shell goes on. -/
inductive Flow where
  | goOn
  | leave
  deriving DecidableEq

/-- Takes one line in.  Every line that is not blank goes into the history first, and what the
output holds back is written out before a child could write it once more. -/
def handle (shell : Shell) (line : String) (history : History) (s : σ) :
    Except Errno Flow × History × σ :=
  let line := trimBlanks line
  if line.isEmpty then (.ok .goOn, history, s)
  else
    let history := history.add line
    match Console.flush s with
    | (.error e, s) => (.error e, history, s)
    | (.ok _, s) =>
      let (outcome, s) := evaluate shell.session line s
      if outcome = .quit then (.ok .leave, history, s)
      else (.ok .goOn, history, shell.reportOutcome outcome s)

/-- Takes lines in until the user leaves or the input ends; the number bounds how many. -/
def loop (shell : Shell) : Nat → History → σ → Except Errno History × σ
  | 0, history, s => (.ok history, s)
  | fuel + 1, history, s =>
    match Console.flush s with
    | (.error e, s) => (.error e, s)
    | (.ok _, s) =>
      let (prompt, s) := shell.prompt s
      match Console.readLine prompt s with
      | (.line line, s) =>
        match shell.handle line history s with
        | (.error e, _, s) => (.error e, s)
        | (.ok .goOn, history, s) => shell.loop fuel history s
        | (.ok .leave, history, s) => (.ok history, System.note .quitting s)
      | (.ended, s) => (.ok history, Console.print "\n" (System.note .inputEnded s))
      | (.interrupted, s) =>
        shell.loop fuel history
          (Console.print (shell.theme.warningText shell.colours shell.theme.interrupted ++ "\n") s)
      | (.notText, s) =>
        let s := System.note (.readFailed notTextMessage) s
        shell.loop fuel history
          (Console.printError
            (shell.theme.errorText shell.colours "error" ++ ": " ++ notTextMessage ++ "\n") s)

/-! ### The history file -/

/-- Records each of some notices. -/
def noteAll (notices : List Notice) (s : σ) : σ :=
  notices.foldl (fun s notice => System.note notice s) s

/-- Reads the history file; without one the history starts empty. -/
def loadHistory (shell : Shell) (s : σ) : History × σ :=
  match Console.readFile shell.historyFile s with
  | .error e => ({}, System.note (.historyUnreadable shell.historyFile e.systemMessage) s)
  | .ok bytes =>
    match String.fromUTF8? ⟨bytes.toArray⟩ with
    | none => ({}, System.note (.historyUnreadable shell.historyFile notTextMessage) s)
    | some text =>
      let (history, bad) := History.decode text
      (history, System.note .historyLoaded (noteAll (bad.map .historyLineBad) s))

/-- Writes the history file, unless no line was added. -/
def saveHistory (shell : Shell) (history : History) (s : σ) : σ :=
  if !history.grown then System.note .historySaved s
  else
    match Console.writeFile shell.historyFile history.encode.toUTF8.toList s with
    | (.ok _, s) => System.note .historySaved s
    | (.error e, s) => System.note (.historyUnsaved e.systemMessage) s

/-! ### Runs -/

/-- What comes before the first line. -/
def start (shell : Shell) (s : σ) : History × σ :=
  let s := System.note .interruptsHandled (System.note .starting s)
  let (history, s) := shell.loadHistory s
  let s := Console.print (shell.theme.welcomeText shell.colours ++ "\n") s
  (history, System.note .ready s)

/-- What comes behind the last line. -/
def finish (shell : Shell) (history : History) (s : σ) : σ :=
  let s := shell.saveHistory history s
  let s := Console.print (shell.theme.farewellText shell.colours ++ "\n") s
  System.note .leaving s

/-- A whole run, in which at most a number of lines is taken in. -/
def run (shell : Shell) (lines : Nat) (s : σ) : Except Errno Unit × σ :=
  let (history, s) := shell.start s
  match shell.loop lines history s with
  | (.error e, s) => (.error e, s)
  | (.ok history, s) => (.ok (), shell.finish history s)

/-- The code that a run ends with. -/
def exitCode : Except Errno Unit → Int
  | .ok _ => 0
  | .error _ => 1

end Shell

end LineShell
