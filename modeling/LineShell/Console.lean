import LineShell.File.Tree
import LineShell.Prompt

namespace LineShell

/-!
# Consoles

* `LineRead` — what reading a line gives.
* `Console` — a system that a user can talk to, with files of its own.
-/

/-- What reading a line gives. -/
inductive LineRead where
  | line (text : String)
  /-- The input is at its end. -/
  | ended
  /-- The bytes of the line are no text. -/
  | notText
  /-- The user interrupted the line. -/
  | interrupted
  deriving DecidableEq

/-- What is said of bytes that are no text. -/
def notTextMessage : String := "stream did not contain valid UTF-8"

/-- A system that a user can talk to, with files of its own. -/
class Console (σ : Type) extends System σ, HasDirectory σ where
  /-- Reads a line, with a prompt for the user. -/
  readLine : String → σ → LineRead × σ
  /-- Writes to the output. -/
  print : String → σ → σ
  /-- Writes to the error output. -/
  printError : String → σ → σ
  /-- Writes out what the output holds back. -/
  flush : σ → Except Errno Unit × σ
  /-- The bytes of a file. -/
  readFile : String → σ → Except Errno Bytes
  /-- Puts bytes into a file, which is made if it is missing. -/
  writeFile : String → Bytes → σ → Except Errno Unit × σ
  /-- The names of the user and of the host. -/
  identity : σ → String × String

end LineShell
