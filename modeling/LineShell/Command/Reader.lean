import LineShell.Word

namespace LineShell

/-!
# Reading commands

A line is read once, from the left.  An operator outside quotes ends the text before it: the words
of a program, or the file of the redirect before.  A redirect wraps what its segment has built so
far, and a pipe joins it to the command of the rest of the line, so pipelines nest to the right.

* `Part` — what the text being read is for.
* `Part.finish` — the command of a segment when that text ends.
* `Command.ofLine` — the command that a line describes.
-/

/-- What the text between two operators is for. -/
inductive Part where
  /-- It holds the words of a program. -/
  | program
  /-- It names the file of a redirect over what was built before. -/
  | target (inner : Command) (direction : Direction)

/-- The file that the text behind a redirect names: blanks at its ends and all quotes are
dropped. -/
def redirectTarget (text : List Char) : List Char :=
  unquote (stripEnds isBlank text)

/-- The reader's file of a redirect, said of the text alone. -/
theorem redirectTarget_eq (text : List Char) :
    redirectTarget text = unquote (stripEnds isBlank text) :=
  rfl

/-- The command built when the text of a part ends, at an operator or at the end of the line.
Before an operator a program must have a name. -/
def Part.finish (text : List Char) (operator : Option Operator) :
    Part → Except ParseError Command
  | .program => do
    let argv ← words text
    match operator with
    | some op => if argv.isEmpty then .error (.missingCommand op) else .ok (.exec argv)
    | none => .ok (.exec argv)
  | .target inner direction =>
    let path := redirectTarget text
    if path.isEmpty then .error (.missingRedirectTarget direction)
    else .ok (.redirect inner direction (String.ofList path))

/-- Joins a command to the rest of its line, which has to hold a command. -/
def pipeTo (left right : Command) : Except ParseError Command :=
  if right.isEmpty then .error .missingPipeTarget else .ok (.pipe left right)

namespace Command

/-- Reads on in a segment, where `text` holds what was read of the current part in reverse,
`quote` the column of a quote that is not closed yet, and `column` the number of characters of the
line read so far. -/
def readFrom (part : Part) (text : List Char) (quote : Option Nat) (column : Nat) :
    List Char → Except ParseError Command
  | [] =>
    match quote with
    | some q => .error (.unterminatedQuote q)
    | none => part.finish text.reverse none
  | c :: cs =>
    match quote with
    | some q =>
      readFrom part (c :: text) (if c = quoteMark then none else some q) (column + 1) cs
    | none =>
      match classify c with
      | .quote => readFrom part (c :: text) (some column) (column + 1) cs
      | .redirect direction => do
        let built ← part.finish text.reverse (some (.redirect direction))
        readFrom (.target built direction) [] none (column + 1) cs
      | .pipe => do
        let left ← part.finish text.reverse (some .pipe)
        let right ← readFrom .program [] none (column + 1) cs
        pipeTo left right
      | .blank | .literal => readFrom part (c :: text) none (column + 1) cs

/-- The command that a line, given by its characters, describes. -/
def ofChars (cs : List Char) : Except ParseError Command :=
  readFrom .program [] none 0 cs

/-- The command that a line describes. -/
def ofLine (line : String) : Except ParseError Command :=
  ofChars line.toList

end Command

end LineShell
