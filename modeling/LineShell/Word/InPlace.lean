import LineShell.Round
import LineShell.Word

namespace LineShell

/-!
# Words read in place

The words of a text can be read by an index into its bytes.  Only the column of a quote that is not
closed is told from a byte offset; the text itself is walked through character by character.

* `WordReader` — a reader on its way through a text.
* `WordReader.round` — one round of its loops.
-/

/-- A reader of words on its way through a text. -/
structure WordReader where
  /-- Where the search for the current word began. -/
  began : Nat := 0
  /-- The number of bytes read. -/
  place : Nat := 0
  /-- The characters that follow. -/
  rest : List Char
  /-- The words found, the latest first. -/
  found : List String := []
  /-- What was read of the current word, in reverse. -/
  word : List Char := []
  /-- Whether the current word has begun. -/
  started : Bool := false
  /-- The place of a quote that is not closed yet. -/
  quote : Option Nat := none

namespace WordReader

/-- The reader a character later. -/
def pass (r : WordReader) (c : Char) (cs : List Char) : WordReader :=
  { r with place := r.place + c.utf8Size, rest := cs }

/-- The reader that begins to search for another word; one that came out empty is no word. -/
def begin (r : WordReader) : WordReader :=
  { r with began := r.place, found := pushWord r.word r.found, word := [], started := false }

/-- One round of the loops of the reader: blanks are passed over, a word is read up to a blank, and
a run between quotes up to the closing quote.  Behind a word the search begins anew. -/
def round (source : List Char) (r : WordReader) :
    Option (Round WordReader (Except ParseError (List String))) :=
  match r.quote, r.rest with
  | some opening, [] =>
    (column? source opening).map fun column => .stop (.error (.unterminatedQuote column))
  | some _, c :: cs =>
    if c = quoteMark then some (.again { r.pass c cs with quote := none })
    else some (.again { r.pass c cs with word := c :: r.word })
  | none, [] => if r.started then some (.again r.begin) else some (.stop (.ok r.found.reverse))
  | none, c :: cs =>
    if isBlank c then some (.again (if r.started then r.begin else r.pass c cs))
    else if c = quoteMark then
      some (.again { r.pass c cs with started := true, quote := some r.place })
    else some (.again { r.pass c cs with started := true, word := c :: r.word })

end WordReader

end LineShell
