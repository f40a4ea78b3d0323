namespace LineShell

/-!
# Text without terminal sequences

A log is plain text: sequences that steer a terminal are taken out of it, and so are controls
other than ASCII blanks.

* `TerminalState` — where in a sequence a reader is.
* `stripSequences` — a text without terminal sequences and controls.
-/

/-- Where in a terminal sequence a reader is. -/
inductive TerminalState where
  /-- In plain text. -/
  | ground
  /-- Behind an escape. -/
  | escape
  /-- Behind an escape and characters that prepare its last one. -/
  | escapeBody
  /-- In a control sequence, before its last character. -/
  | control
  /-- In a text for the terminal that an escape or a bell ends. -/
  | command
  /-- In a text for the terminal that only an escape ends. -/
  | payload
  deriving DecidableEq

/-- Whether a control character is kept: the blanks of ASCII are. -/
def isKeptControl (c : Char) : Bool :=
  c == '\t' || c == '\n' || c == '\x0c' || c == '\r' || c == ' '

/-- The state behind a character, and whether the character is kept.  A character kept within a
sequence ends it. -/
def TerminalState.step (state : TerminalState) (c : Char) : TerminalState × Bool :=
  let n := c.toNat
  if c = '\x1b' then (.escape, false)
  else if n = 0x18 ∨ n = 0x1A then (.ground, false)
  else
    match state with
    | .ground => (.ground, if n < 0x20 then isKeptControl c else n != 0x7F)
    | .escape =>
      if n < 0x20 then (if isKeptControl c then .ground else .escape, isKeptControl c)
      else if n < 0x30 then (.escapeBody, false)
      else if c = '[' then (.control, false)
      else if c = ']' then (.command, false)
      else if c = 'P' ∨ c = 'X' ∨ c = '^' ∨ c = '_' then (.payload, false)
      else if n < 0x7F then (.ground, false)
      else if n = 0x7F then (.escape, false)
      else (.ground, true)
    | .escapeBody =>
      if n < 0x20 then (if isKeptControl c then .ground else .escapeBody, isKeptControl c)
      else if n < 0x30 then (.escapeBody, false)
      else if n < 0x7F then (.ground, false)
      else if n = 0x7F then (.escapeBody, false)
      else (.ground, true)
    | .control =>
      if n < 0x20 then (if isKeptControl c then .ground else .control, isKeptControl c)
      else if n < 0x40 then (.control, false)
      else if n < 0x7F then (.ground, false)
      else if n = 0x7F then (.control, false)
      else (.ground, true)
    | .command => (if n = 0x07 then .ground else .command, false)
    | .payload => (.payload, false)

/-- The rest of a text without sequences and controls, read from a state. -/
def stripFrom (state : TerminalState) : List Char → List Char
  | [] => []
  | c :: cs =>
    let (state, kept) := state.step c
    if kept then c :: stripFrom state cs else stripFrom state cs

/-- A text without terminal sequences and controls. -/
def stripSequences (s : String) : String :=
  String.ofList (stripFrom .ground s.toList)

end LineShell
