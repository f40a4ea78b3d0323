import LineShell.Text.Blank
import LineShell.Text.Offset
import LineShell.Command
import LineShell.Command.Error

namespace LineShell

/-!
# Words

A part of a line without operators is a sequence of words.  Blanks separate words, a run between
quotes belongs to its word as it stands, quotes themselves are dropped, and a word that comes out
empty is no word.

* `CharClass`, `classify` — what a character means in a line.
* `unquote` — a text without its quotes.
* `words` — the words of a text.
* `Scanner`, `Scanner.next` — the words one at a time.
-/

/-- What a character means in a line. -/
inductive CharClass where
  | blank
  | pipe
  | redirect (direction : Direction)
  | quote
  | literal
  deriving DecidableEq

/-- The meaning of a character. -/
def classify (c : Char) : CharClass :=
  if isBlank c then .blank
  else if c = '|' then .pipe
  else if c = '<' then .redirect .input
  else if c = '>' then .redirect .output
  else if c = quoteMark then .quote
  else .literal

/-- A text without its quotes. -/
def unquote (cs : List Char) : List Char :=
  cs.filter (· != quoteMark)

/-! ### All words of a text -/

/-- Puts a word, read in reverse, before the words that follow it, unless it is empty. -/
def pushWord (word : List Char) (words : List String) : List String :=
  if word.isEmpty then words else String.ofList word.reverse :: words

/-- The words of a text, where `word` holds what was read of the current one in reverse, `quote`
the column of a quote that is not closed yet, and `column` the number of characters read. -/
def wordsFrom (word : List Char) (quote : Option Nat) (column : Nat) :
    List Char → Except ParseError (List String)
  | [] =>
    match quote with
    | some q => .error (.unterminatedQuote q)
    | none => .ok (pushWord word [])
  | c :: cs =>
    match quote with
    | some q =>
      if c = quoteMark then wordsFrom word none (column + 1) cs
      else wordsFrom (c :: word) (some q) (column + 1) cs
    | none =>
      if isBlank c then (wordsFrom [] none (column + 1) cs).map (pushWord word)
      else if c = quoteMark then wordsFrom word (some column) (column + 1) cs
      else wordsFrom (c :: word) none (column + 1) cs

/-- The words of a text.  A quote that is not closed is an error at its column. -/
def words (cs : List Char) : Except ParseError (List String) :=
  wordsFrom [] none 0 cs

/-! ### One word at a time -/

/-- A place in a text: the characters that follow and the number of those before. -/
structure Scanner where
  rest : List Char
  column : Nat

/-- The start of a text. -/
def Scanner.ofText (cs : List Char) : Scanner :=
  ⟨cs, 0⟩

/-- Reads up to the end of the next word; the arguments are those of `wordsFrom`.  The answer is
`none` at the end of the text, and the scanner then stands at the blank behind the word or at the
end. -/
def nextFrom (word : List Char) (quote : Option Nat) (column : Nat) :
    List Char → Except ParseError (Option String) × Scanner
  | [] =>
    match quote with
    | some q => (.error (.unterminatedQuote q), ⟨[], column⟩)
    | none => (.ok (pushWord word []).head?, ⟨[], column⟩)
  | c :: cs =>
    match quote with
    | some q =>
      if c = quoteMark then nextFrom word none (column + 1) cs
      else nextFrom (c :: word) (some q) (column + 1) cs
    | none =>
      if isBlank c then
        if word.isEmpty then nextFrom [] none (column + 1) cs
        else (.ok (some (String.ofList word.reverse)), ⟨c :: cs, column⟩)
      else if c = quoteMark then nextFrom word (some column) (column + 1) cs
      else nextFrom (c :: word) none (column + 1) cs

/-- Reads the next word; `none` stands for the end of the text. -/
def Scanner.next (s : Scanner) : Except ParseError (Option String) × Scanner :=
  nextFrom [] none s.column s.rest

/-- The answers of a number of calls of `Scanner.next` in a row. -/
def Scanner.take : Nat → Scanner → List (Except ParseError (Option String))
  | 0, _ => []
  | n + 1, s => s.next.1 :: s.next.2.take n

end LineShell
