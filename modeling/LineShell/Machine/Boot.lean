import LineShell.Machine
import LineShell.Shell

namespace LineShell

/-!
# Starting the shell on a machine

* `Machine.loadVariables` — the environment completed from a file of variables.
* `Machine.openLog` — the log file of the day.
* `Machine.boot` — a whole run of the shell, with the code it ends with.
-/

namespace Machine

/-! ### Variables -/

/-- The name of the file of variables. -/
def variablesFile : String := ".env.development"

/-- A directory and those above it. -/
def withParents : Nat → String → List String
  | 0, directory => [directory]
  | depth + 1, directory =>
    match Path.parent? directory with
    | some parent => directory :: withParents depth parent
    | none => [directory]

/-- The file of variables that is in the working directory or the nearest one above it. -/
def findVariables? (m : Machine) : Option Bytes := do
  let directory ← m.tree.currentDirectory?
  (withParents (Path.names directory).length directory).findSome? fun directory =>
    (readPath m.tree (Path.join directory variablesFile)).toOption

/-- The lines of a text up to the first that is no text. -/
def textLinesOf (bytes : Bytes) : List (List Char) :=
  let texts := (linesOf bytes).map fun line =>
    (String.fromUTF8? ⟨(dropLineEnd (line ++ [lineEnd])).toArray⟩).map (·.toList)
  (texts.takeWhile (·.isSome)).filterMap id

/-- Completes the environment from the file of variables.  A variable that has a value keeps
it. -/
def loadVariables (m : Machine) : Machine :=
  match m.findVariables? with
  | some bytes =>
    { m with environment := withVariables m.environment [] (textLinesOf bytes) }
  | none => m

/-- The settings that the environment gives. -/
def config (m : Machine) : Config :=
  Config.ofLookup ((m.environment.lookup "HOME").getD "/") fun name => m.environment.lookup name

/-! ### Directories and the log -/

/-- Makes the directories of the history file and of the log. -/
def makeDirectoriesFor (config : Config) (m : Machine) : Except Errno Machine := do
  let tree ← match Path.parent? config.historyFile with
    | some parent => m.tree.makeDirectories parent
    | none => .ok m.tree
  let tree ← tree.makeDirectories config.logDirectory
  .ok { m with tree := tree }

/-- The path of the log file of the day. -/
def logFile (config : Config) (m : Machine) : String :=
  let day := String.ofList (m.time.toList.takeWhile (· != ' '))
  Path.join config.logDirectory (config.name ++ "_" ++ day ++ ".log")

/-- Opens the log. -/
def openLog (config : Config) (m : Machine) : Except Errno Machine := do
  let (file, tree) ← m.tree.openForAppending (logFile config m)
  .ok { m with tree := tree, log := some ⟨config.level, file, config.logToStderr⟩ }

/-- What a run says that ends with an error. -/
def errorReport (e : Errno) : String :=
  "Error: Os \x7b code: " ++ toString e.number ++ ", kind: " ++ e.kind ++ ", message: "
    ++ quoteText e.description ++ " \x7d\n"

/-! ### Whole runs -/

/-- A run once the log is open. -/
def runShell (config : Config) (m : Machine) : Except Errno Unit × Machine :=
  let m := System.note (.levelSet config.level) m
  let m := System.note (.configLoaded config.directory) m
  let (session, notices) := Session.ofSettings config.home config.aliases
  let m := Shell.noteAll notices m
  let shell : Shell := ⟨session, Theme.named config.theme, m.colours, config.historyFile⟩
  shell.run (m.source.size + 1) m

/-- A whole run of the shell, with the code it ends with. -/
def boot (m : Machine) : Int × Machine :=
  let m := m.loadVariables
  let config := m.config
  let (result, m) : Except Errno Unit × Machine :=
    match makeDirectoriesFor config m >>= openLog config with
    | .ok m => runShell config m
    | .error e => (.error e, m)
  match result with
  | .ok _ => (Shell.exitCode result, m)
  | .error e => (Shell.exitCode result, m.printError (errorReport e))

end Machine

end LineShell
