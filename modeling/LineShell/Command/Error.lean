import LineShell.Command

namespace LineShell

/-!
# Lines that describe no command

* `Operator` — the characters that cut a line.
* `ParseError` — why a line is rejected.
* `ParseError.message` — the wording.
-/

/-- The characters that cut a line outside quotes. -/
inductive Operator where
  | pipe
  | redirect (direction : Direction)
  deriving DecidableEq

/-- The character of an operator. -/
def Operator.symbol : Operator → Char
  | .pipe => '|'
  | .redirect d => d.symbol

/-- Why a line is rejected. -/
inductive ParseError where
  /-- A quote, the given number of characters behind the start, is not closed. -/
  | unterminatedQuote (column : Nat)
  /-- A redirect names no file. -/
  | missingRedirectTarget (direction : Direction)
  /-- An operator follows nothing that could run. -/
  | missingCommand (operator : Operator)
  /-- A pipe leads nowhere. -/
  | missingPipeTarget
  deriving DecidableEq

/-- The wording of a rejection. -/
def ParseError.message : ParseError → String
  | .unterminatedQuote column => "unterminated quote starting at column " ++ toString column
  | .missingRedirectTarget d => "missing file name after `" ++ d.symbol.toString ++ "`"
  | .missingCommand op => "missing command before `" ++ op.symbol.toString ++ "`"
  | .missingPipeTarget => "missing command after `|`"

end LineShell
