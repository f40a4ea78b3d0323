import LineShell.Machine.Job
import LineShell.Console
import LineShell.Text.Unseen

namespace LineShell

/-!
# Lines of standard input

The shell reads its input through a buffer and its children read what the buffer has not taken
yet, so both are kept apart.

* `Source`, `Source.line` — the input, and the next line of it.
* `undoBackspaces` — a line with the characters taken out that a backspace follows.
* `Source.read` — the next line as a text.
-/

/-- The input of a shell: what its buffer holds, what comes behind that, and how long the whole
input is. -/
structure Source where
  buffer : Bytes := []
  unread : Bytes
  size : Nat

/-- The input of which nothing was read. -/
def Source.ofBytes (bytes : Bytes) : Source :=
  { unread := bytes, size := bytes.length }

/-- How much the buffer takes at once. -/
def bufferSize : Nat := 8192

/-- The bytes up to and with the next line end, or up to the end of the input. -/
def Source.line (s : Source) : Bytes × Source :=
  match s.buffer.span (· != lineEnd) with
  | (before, b :: behind) => (before ++ [b], { s with buffer := behind })
  | (before, []) =>
    if _hs : s.unread = [] then (before, { s with buffer := [] })
    else
      let rest := Source.line ⟨s.unread.take bufferSize, s.unread.drop bufferSize, s.size⟩
      (before ++ rest.1, rest.2)
termination_by s.unread.length
decreasing_by
  have : 0 < s.unread.length := List.length_pos_iff.mpr _hs
  simp only [List.length_drop, bufferSize]
  omega

/-- The backspace. -/
def backspace : Char := '\x08'

/-- Whether a character stands for itself whatever follows it. -/
def isControl (c : Char) : Bool :=
  c.toNat < 0x20 || (0x7F ≤ c.toNat && c.toNat < 0xA0)

/-- Reads on in a line; `done` holds the characters kept, each with the marks that join it, in
reverse, and `joinable` says whether a mark would join the last of them. -/
def undoFrom (done : List (List Char)) (joinable : Bool) : List Char → List (List Char)
  | [] => done.reverse
  | c :: cs =>
    if c = backspace then undoFrom (done.drop 1) false cs
    else
      match done with
      | last :: before =>
        if joinable && (isJoining c || c == '\u200d') then undoFrom ((last ++ [c]) :: before) true cs
        else undoFrom ([c] :: done) (!isControl c) cs
      | [] => undoFrom [[c]] (!isControl c) cs

/-- A line in which each backspace takes the character before it away. -/
def undoBackspaces (line : List Char) : List Char :=
  if line.contains backspace then (undoFrom [] false line).flatten else line

/-- Bytes without the line end behind them: a line feed, together with a carriage return before
it. -/
def dropLineEnd (bytes : Bytes) : Bytes :=
  match bytes.reverse with
  | 10 :: 13 :: rest => rest.reverse
  | 10 :: rest => rest.reverse
  | _ => bytes

/-- Reads the next line. -/
def Source.read (s : Source) : LineRead × Source :=
  let (bytes, s) := s.line
  if bytes.isEmpty then (.ended, s)
  else
    match String.fromUTF8? ⟨(dropLineEnd bytes).toArray⟩ with
    | some text => (.line (String.ofList (undoBackspaces text.toList)), s)
    | none => (.notText, s)

end LineShell
