import LineShell.File.Path
import LineShell.Level

namespace LineShell

/-!
# Configuration

* `Config` — the settings of a shell.
* `Config.ofLookup` — the settings that variables give, on top of defaults.
* `Config.editMode` — the keys of the line editor.
-/

/-- The settings of a shell. -/
structure Config where
  /-- The name of the shell, which its log files and directories bear. -/
  name : String
  theme : String
  /-- The directory of the shell's own files. -/
  directory : String
  historyFile : String
  editor : String
  logLevel : String
  logDirectory : String
  /-- Whether records of the log go to standard error too. -/
  logToStderr : Bool
  home : String
  /-- A text of alias definitions. -/
  aliases : Option String
  deriving DecidableEq

/-- The keys of the line editor. -/
inductive EditMode where
  | emacs
  | vi
  deriving DecidableEq

namespace Config

/-- The settings that hold when no variable says otherwise. -/
def default (home : String) : Config :=
  let directory := Path.join home ".config/forksh"
  { name := "forksh"
    theme := "default"
    directory := directory
    historyFile := Path.join directory ".forksh_history"
    editor := "emacs"
    logLevel := "info"
    logDirectory := Path.join directory "logs"
    logToStderr := false
    home := home
    aliases := none }

/-- Whether a text means yes: one of four words in ASCII letters of any case, spaces aside. -/
def isYes (flag : String) : Bool :=
  ["1", "true", "yes", "on"].contains
    (String.ofList ((trimSpaces flag).toList.map Char.toLower))

/-- The settings that variables give.  The home directory is the detected one unless a variable
names another. -/
def ofLookup (detectedHome : String) (lookup : String → Option String) : Config :=
  let base := default ((lookup "FORKSH_HOME").getD detectedHome)
  { base with
    theme := (lookup "FORKSH_THEME").getD base.theme
    editor := (lookup "FORKSH_EDITOR").getD base.editor
    historyFile := (lookup "FORKSH_HISTORY").getD base.historyFile
    logLevel := (lookup "FORKSH_LOG_LEVEL").getD base.logLevel
    logDirectory := (lookup "FORKSH_LOG_DIR").getD base.logDirectory
    logToStderr := ((lookup "FORKSH_LOG_STDERR").map isYes).getD base.logToStderr
    aliases := lookup "FORKSH_ALIASES" }

/-- The keys that a configuration asks for: those of vi when it names them, in ASCII letters of
any case. -/
def editMode (config : Config) : EditMode :=
  if config.editor.toList.map Char.toLower = ['v', 'i'] then .vi else .emacs

/-- The level that the log is kept at. -/
def level (config : Config) : Level :=
  Level.ofText config.logLevel

end Config

end LineShell
