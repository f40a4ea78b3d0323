import LineShell.Process
import LineShell.File.Path

namespace LineShell

/-!
# The prompt

* `Prompt` — the parts of a prompt.
* `Prompt.directoryText` — how the working directory is shown.
* `Prompt.render` — the prompt as a text.
-/

/-- The parts of a prompt. -/
structure Prompt where
  user : String
  host : String
  directory : String
  deriving DecidableEq

namespace Prompt

/-- How a directory is shown: home as a tilde, a directory by its last name, and the root and the
empty path as they are. -/
def directoryText (home current : String) : String :=
  if Path.components current = Path.components home then "~"
  else if current = "/" ∨ current = "" then current
  else Path.baseName current

/-- The name of a host up to its first dot. -/
def shortHost (host : String) : String :=
  String.ofList (host.toList.takeWhile (· != '.'))

/-- The prompt as a text. -/
def render (prompt : Prompt) : String :=
  "[" ++ prompt.user ++ "@" ++ prompt.host ++ " " ++ prompt.directory ++ "]> "

end Prompt

/-- A system whose working directory can be asked for. -/
class HasDirectory (σ : Type) where
  /-- The path of the working directory; `none` when it has lost its name. -/
  currentDirectory? : σ → Option String

variable {σ : Type} [System σ] [HasDirectory σ]

/-- How the working directory is shown in a prompt; nothing is shown of one that has lost its
name, and the log says so. -/
def showDirectory (home : String) (s : σ) : String × σ :=
  match HasDirectory.currentDirectory? s with
  | some current => (Prompt.directoryText home current, s)
  | none => (Prompt.directoryText home "", System.note .noCurrentDirectory s)

end LineShell
