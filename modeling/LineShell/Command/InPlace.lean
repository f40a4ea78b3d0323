import LineShell.Command.Reader
import LineShell.Round

namespace LineShell

/-!
# Commands read in place

A line can be read as a command by indices into its bytes.  A segment is a part of the line that is
trimmed first, so a place in the segment and the same place in the line are told by different
indices, whose distance is the offset of the segment.

* `SegmentReader` — a reader on its way through a segment.
* `SegmentReader.enter?` — the reader at the start of a segment.
* `SegmentReader.round` — one round of its loops.
-/

/-- A search for the end of the text that names the file of a redirect. -/
structure Search where
  inner : Command
  direction : Direction
  /-- Where the text begins. -/
  first : Nat
  /-- Where the search stands. -/
  place : Nat

/-- A reader on its way through a segment of a line.  Indices are those of the segment. -/
structure SegmentReader where
  /-- The commands before the pipes that led to this segment, the latest first. -/
  lefts : List Command
  /-- Where the segment begins in the line. -/
  start : Nat
  /-- Where the trimmed segment begins in the line. -/
  offset : Nat
  /-- The segment, trimmed. -/
  segment : List Char
  /-- Where the reader stands. -/
  index : Nat := 0
  /-- The text of a program, read so far. -/
  pending : List Char := []
  /-- The command that redirects were put on. -/
  current : Option Command := none
  /-- The redirect whose file is being looked for. -/
  search : Option Search := none

/-- The result behind some pipes, for the whole line. -/
def joinLefts : List Command → Except ParseError Command → Except ParseError Command
  | [], result => result
  | left :: lefts, result => joinLefts lefts (result >>= pipeTo left)

namespace SegmentReader

/-- The reader at the start of the segment that begins at a byte offset of the line. -/
def enter? (line : List Char) (lefts : List Command) (start : Nat) : Option SegmentReader :=
  (afterBytes? line start).map fun raw =>
    { lefts := lefts
      start := start
      offset := start + (byteSize raw - byteSize (raw.dropWhile isBlank))
      segment := stripEnds isBlank raw }

/-- The command before an operator. -/
def built (r : SegmentReader) (operator : Option Operator) : Except ParseError Command :=
  match r.current with
  | some command => .ok command
  | none => Part.program.finish r.pending operator

/-- The end at a quote of the segment that is not closed. -/
def unclosed (line : List Char) (r : SegmentReader) (quote : Nat) :
    Option (Round SegmentReader (Except ParseError Command)) :=
  (column? line (r.offset + quote)).map fun column => .stop (.error (.unterminatedQuote column))

/-- The end of a search: the text up to there names the file of the redirect. -/
def take (r : SegmentReader) (s : Search) (stop : Nat) :
    Option (Round SegmentReader (Except ParseError Command)) :=
  (slice? r.segment s.first stop).map fun text =>
    match (Part.target s.inner s.direction).finish text none with
    | .error e => .stop (.error e)
    | .ok command =>
      .again { r with index := stop, pending := [], current := some command, search := none }

/-- One round of the search for the end of the text that names a file. -/
def searchRound (line : List Char) (r : SegmentReader) (s : Search) :
    Option (Round SegmentReader (Except ParseError Command)) :=
  (afterBytes? r.segment s.place).bind fun
    | [] => r.take s (byteSize r.segment)
    | c :: _ =>
      match classify c with
      | .pipe | .redirect _ => r.take s s.place
      | .quote =>
        (closingQuote? r.segment s.place).bind fun
          | none => r.unclosed line s.place
          | some close =>
            some (.again { r with search := some { s with place := close + quoteMark.utf8Size } })
      | .blank | .literal =>
        some (.again { r with search := some { s with place := s.place + c.utf8Size } })

/-- One round of the loop over a segment. -/
def scanRound (line : List Char) (r : SegmentReader) :
    Option (Round SegmentReader (Except ParseError Command)) :=
  (afterBytes? r.segment r.index).bind fun
    | [] => some (.stop (joinLefts r.lefts (r.built none)))
    | c :: _ =>
      match classify c with
      | .quote =>
        (closingQuote? r.segment r.index).bind fun
          | none => r.unclosed line r.index
          | some close =>
            let behind := close + quoteMark.utf8Size
            (slice? r.segment r.index behind).map fun run =>
              .again { r with index := behind, pending := r.pending ++ run }
      | .redirect direction =>
        match r.built (some (.redirect direction)) with
        | .error e => some (.stop (.error e))
        | .ok inner =>
          let behind := r.index + c.utf8Size
          some (.again
            { r with current := none, search := some ⟨inner, direction, behind, behind⟩ })
      | .pipe =>
        match r.built (some .pipe) with
        | .error e => some (.stop (.error e))
        | .ok left =>
          (enter? line (left :: r.lefts) (r.offset + r.index + c.utf8Size)).map .again
      | .blank | .literal =>
        some (.again { r with index := r.index + c.utf8Size, pending := r.pending ++ [c] })

/-- One round of the loops of the reader: over a segment, or within it for the end of the text that
names a file. -/
def round (line : List Char) (r : SegmentReader) :
    Option (Round SegmentReader (Except ParseError Command)) :=
  match r.search with
  | some s => r.searchRound line s
  | none => r.scanRound line

end SegmentReader

end LineShell
