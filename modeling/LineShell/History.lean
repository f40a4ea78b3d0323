import LineShell.Text.Blank

namespace LineShell

/-!
# The history of lines

* `History` — the lines kept, oldest first, and whether any is new.
* `History.add` — one more line.
* `History.encode`, `History.decode` — the text of a history file.
-/

/-- The lines kept, oldest first. -/
structure History where
  entries : List String := []
  /-- Whether a line was added since the history was read. -/
  grown : Bool := false

namespace History

/-- How many lines are kept. -/
def limit : Nat := 100

/-- Whether a line is not taken: it is empty, it starts with a space, or it repeats the last
one. -/
def refuses (h : History) (line : String) : Bool :=
  (match line.toList with
    | [] => true
    | c :: _ => isSpace c) || h.entries.getLast? == some line

/-- Adds a line at the end; the oldest one makes room when there are too many. -/
def add (h : History) (line : String) : History :=
  if h.refuses line then h
  else
    let kept := if h.entries.length = limit then h.entries.drop 1 else h.entries
    { entries := kept ++ [line], grown := true }

/-! ### History files -/

/-- The first line of a history file in which line feeds and backslashes are escaped. -/
def versionLine : String := "#V2"

/-- A line with its line feeds and backslashes escaped. -/
def escapeLine : List Char → List Char
  | [] => []
  | '\\' :: cs => '\\' :: '\\' :: escapeLine cs
  | '\n' :: cs => '\\' :: 'n' :: escapeLine cs
  | c :: cs => c :: escapeLine cs

/-- A line with its escapes undone; `none` when one of them is unknown. -/
def unescapeLine? : List Char → Option (List Char)
  | [] => some []
  | '\\' :: '\\' :: cs => (unescapeLine? cs).map ('\\' :: ·)
  | '\\' :: 'n' :: cs => (unescapeLine? cs).map ('\n' :: ·)
  | '\\' :: _ => none
  | c :: cs => (unescapeLine? cs).map (c :: ·)

/-- The text of a history file. -/
def encode (h : History) : String :=
  String.join
    ((versionLine :: h.entries.map fun line => String.ofList (escapeLine line.toList)).map
      (· ++ "\n"))

/-- The lines of a text.  A line feed ends a line, together with a carriage return before it. -/
def textLines : List Char → List (List Char) → List Char → List (List Char)
  | line, done, [] => (if line.isEmpty then done else line.reverse :: done).reverse
  | line, done, '\n' :: cs =>
    let ended :=
      match line with
      | '\r' :: rest => rest
      | _ => line
    textLines [] (ended.reverse :: done) cs
  | line, done, c :: cs => textLines (c :: line) done cs

/-- Takes in the lines of a history file behind its first; the escapes of a line count only when
`escaped` holds, and a line with an unknown escape is taken as it stands and also returned. -/
def takeLines (escaped : Bool) (h : History) : List (List Char) → History × List String
  | [] => (h, [])
  | line :: rest =>
    if line.isEmpty then h.takeLines escaped rest
    else if !escaped then (h.add (String.ofList line)).takeLines escaped rest
    else
      match unescapeLine? line with
      | some plain => (h.add (String.ofList plain)).takeLines escaped rest
      | none =>
        let (h, bad) := (h.add (String.ofList line)).takeLines escaped rest
        (h, String.ofList line :: bad)

/-- The history of the text of a history file, with the lines whose escapes are unknown.  Without
the version line every line is taken as it stands. -/
def decode (text : String) : History × List String :=
  let (h, bad) : History × List String :=
    match textLines [] [] text.toList with
    | [] => ({}, [])
    | first :: rest =>
      if String.ofList first = versionLine then takeLines true {} rest
      else takeLines false (add {} (String.ofList first)) rest
  ({ h with grown := false }, bad)

end History

end LineShell
