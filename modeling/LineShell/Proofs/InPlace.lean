import LineShell.Proofs.InPlace.Reads
import LineShell.Proofs.InPlace.Words

namespace LineShell

/-!
# Lines are read in place

The reader of segments adds and hands on byte offsets of three texts: the line, a segment of it and
the segment without the blanks around it.  All of them name places where they are used, and the
reader ends with the command of the line.

* `SegmentReader.Placed` — the offsets of a reader name places of its segment, and of the line.
* `SegmentReader.Further` — a round that goes further.
* `SegmentReader.Sound` — the invariant: what the reader has collected is what reading on needs.
* `SegmentReader.Sound.goesOn` — every round goes well.
* `read_in_place` — words and commands are read in place.
-/

namespace SegmentReader

/-! ### What is said of a reader -/

/-- The segment begins at a place of the line and is trimmed from there; where a place of it lies in
the line is told by the offset.  The reader stands at a place of the segment, and so does its
search, which has begun behind it. -/
structure Placed (line : List Char) (r : SegmentReader) : Prop where
  segment : ∃ raw, afterBytes? line r.start = some raw ∧ r.segment = stripEnds isBlank raw
  offset : ∃ tail, ∀ i rest, afterBytes? r.segment i = some rest →
    afterBytes? line (r.offset + i) = some (rest ++ tail)
  index : ∃ rest, afterBytes? r.segment r.index = some rest
  first : ∀ s, r.search = some s → r.index < s.first ∧
    ∃ rest, afterBytes? r.segment s.first = some rest
  place : ∀ s, r.search = some s → s.first ≤ s.place ∧
    ∃ rest, afterBytes? r.segment s.place = some rest

/-- The reader is still in the same segment. -/
def SameSegment (r r' : SegmentReader) : Prop :=
  r'.lefts = r.lefts ∧ r'.start = r.start ∧ r'.offset = r.offset ∧ r'.segment = r.segment

/-- A round goes further. -/
inductive Further (r r' : SegmentReader) : Prop where
  /-- A round of the loop over the segment. -/
  | scan : r.SameSegment r' → r.search = none → r'.search = none → r.index < r'.index →
      Further r r'
  /-- A search begins, which is a part of a round of that loop. -/
  | begin {s : Search} : r.SameSegment r' → r.search = none → r'.search = some s →
      r'.index = r.index → r.index < s.place → Further r r'
  /-- A round of a search. -/
  | search {s s' : Search} : r.SameSegment r' → r.search = some s → r'.search = some s' →
      r'.index = r.index → s'.first = s.first → s.place < s'.place → Further r r'
  /-- A search is at its end. -/
  | close {s : Search} : r.SameSegment r' → r.search = some s → r'.search = none →
      r.index < r'.index → s.place ≤ r'.index → Further r r'
  /-- Another segment is read, of which less is left. -/
  | enter {left : Command} : r'.lefts = left :: r.lefts → r.search = none → r'.search = none →
      r.start < r'.start → r.offset + r.index < r'.start → Further r r'

/-- A segment lies in the line between other segments and blanks. -/
structure Lies (line : List Char) (start offset : Nat) (segment before lead tail : List Char) :
    Prop where
  whole : line = before ++ (lead ++ (segment ++ tail))
  start : start = byteSize before
  offset : offset = byteSize (before ++ lead)
  blankLead : ∀ c ∈ lead, isBlank c = true
  blankTail : ∀ c ∈ tail, isBlank c = true
  trimmed : segment = stripEnds isBlank (lead ++ (segment ++ tail))

/-- The reader stands in the text of a program, of which it has the characters up to its place but
the blanks at the front, and no open quote. -/
structure InProgram (line : List Char) (r : SegmentReader)
    (before lead tail seen rest : List Char) : Prop where
  lies : Lies line r.start r.offset r.segment before lead tail
  idle : r.search = none
  fresh : r.current = none
  stands : r.segment = seen ++ rest
  index : r.index = byteSize seen
  closed : Even (r.pending.count quoteMark)
  reads : Reads line r.lefts .program (lead ++ r.pending) (before ++ (lead ++ seen)) (rest ++ tail)

/-- The reader stands behind the file of a redirect, where nothing but an operator can follow. -/
structure Built (line : List Char) (r : SegmentReader) (before lead tail seen rest text : List Char)
    (inner : Command) (direction : Direction) (command : Command) : Prop where
  lies : Lies line r.start r.offset r.segment before lead tail
  idle : r.search = none
  current : r.current = some command
  stands : r.segment = seen ++ rest
  index : r.index = byteSize seen
  ended : rest = [] ∨ ∃ op : Operator, ∃ behind, rest = op.symbol :: behind
  file : (Part.target inner direction).finish text none = .ok command
  reads : Reads line r.lefts (.target inner direction) text (before ++ (lead ++ seen))
    (rest ++ tail)

/-- The reader searches for the end of the text that names a file; a redirect, at the place of the
reader, stands before the text, and the search has come to the end of what was read of it. -/
structure Searching (line : List Char) (r : SegmentReader) (s : Search)
    (before lead tail seen : List Char) (mark : Char) (text rest : List Char) : Prop where
  lies : Lies line r.start r.offset r.segment before lead tail
  search : r.search = some s
  stands : r.segment = seen ++ mark :: (text ++ rest)
  index : r.index = byteSize seen
  first : s.first = byteSize (seen ++ [mark])
  place : s.place = byteSize (seen ++ mark :: text)
  reads : Reads line r.lefts (.target s.inner s.direction) text
    (before ++ (lead ++ (seen ++ mark :: text))) (rest ++ tail)

/-- The invariant: what the reader has collected is what reading on needs. -/
inductive Sound (line : List Char) (r : SegmentReader) : Prop where
  | program {before lead tail seen rest : List Char}
      (h : InProgram line r before lead tail seen rest)
  | built {before lead tail seen rest text : List Char} {inner command : Command}
      {direction : Direction}
      (h : Built line r before lead tail seen rest text inner direction command)
  | searching {s : Search} {before lead tail seen text rest : List Char} {mark : Char}
      (h : Searching line r s before lead tail seen mark text rest)

variable {line : List Char} {r r' : SegmentReader}

/-! ### Places -/

section Lies

variable {start offset : Nat} {segment before lead tail seen rest : List Char}

/-- A place of the segment is a place of the line. -/
theorem Lies.afterBytes?_eq (lies : Lies line start offset segment before lead tail) {i : Nat}
    (h : afterBytes? segment i = some rest) :
    afterBytes? line (offset + i) = some (rest ++ tail) := by
  obtain ⟨seen, rfl, rfl⟩ := afterBytes?_eq_some_iff.1 h
  have hsplit : line = ((before ++ lead) ++ seen) ++ (rest ++ tail) := by simp [lies.whole]
  have hsize : offset + byteSize seen = byteSize ((before ++ lead) ++ seen) := by
    rw [byteSize_append (before ++ lead), lies.offset]
  rw [hsplit, hsize, afterBytes?_append]

/-- The number of characters before a place of the segment, in the whole line. -/
theorem Lies.column?_eq (lies : Lies line start offset segment before lead tail)
    (stands : segment = seen ++ rest) :
    column? line (offset + byteSize seen) = some (before ++ (lead ++ seen)).length := by
  have hsplit : line = (before ++ (lead ++ seen)) ++ (rest ++ tail) := by simp [lies.whole, stands]
  have hsize : offset + byteSize seen = byteSize (before ++ (lead ++ seen)) := by
    simp [lies.offset, Nat.add_assoc]
  rw [hsplit, hsize, column?_append]

/-- A reader of a segment that lies in the line is in its place when its own offsets are places of
the segment. -/
theorem Lies.placed (lies : Lies line r.start r.offset r.segment before lead tail)
    (index : ∃ rest, afterBytes? r.segment r.index = some rest)
    (first : ∀ s, r.search = some s → r.index < s.first ∧
      ∃ rest, afterBytes? r.segment s.first = some rest)
    (place : ∀ s, r.search = some s → s.first ≤ s.place ∧
      ∃ rest, afterBytes? r.segment s.place = some rest) : r.Placed line where
  segment := ⟨lead ++ (r.segment ++ tail), by rw [lies.whole, lies.start, afterBytes?_append],
    lies.trimmed⟩
  offset := ⟨tail, fun _ _ h => lies.afterBytes?_eq h⟩
  index := index
  first := first
  place := place

end Lies

/-- A sound reader is in its place. -/
theorem Sound.placed (h : r.Sound line) : r.Placed line := by
  cases h with
  | program h =>
    exact h.lies.placed ⟨_, by rw [h.stands, h.index, afterBytes?_append]⟩ (by simp [h.idle])
      (by simp [h.idle])
  | built h =>
    exact h.lies.placed ⟨_, by rw [h.stands, h.index, afterBytes?_append]⟩ (by simp [h.idle])
      (by simp [h.idle])
  | @searching s before lead tail seen text rest mark h =>
    -- the search has begun behind the redirect and stands behind the text it has read
    have behind : r.segment = (seen ++ [mark]) ++ (text ++ rest) := by simp [h.stands]
    have there : r.segment = (seen ++ mark :: text) ++ rest := by simp [h.stands]
    refine h.lies.placed ⟨_, by rw [h.stands, h.index, afterBytes?_append]⟩ (fun s' hs => ?_)
      fun s' hs => ?_
    · obtain rfl : s = s' := Option.some.inj (h.search.symm.trans hs)
      refine ⟨?_, _, by rw [behind, h.first, afterBytes?_append]⟩
      rw [h.index, h.first]
      exact byteSize_lt_append ..
    · obtain rfl : s = s' := Option.some.inj (h.search.symm.trans hs)
      refine ⟨?_, _, by rw [there, h.place, afterBytes?_append]⟩
      simp [h.first, h.place]

/-- The place where the loop that is running stands. -/
def running (r : SegmentReader) : Nat :=
  match r.search with
  | some s => s.place
  | none => r.index

/-- What is left to read, for both loops. -/
def left (line : List Char) (r : SegmentReader) : Nat :=
  2 * byteSize line - ((r.offset + r.index) + (r.offset + r.running))

/-- A place of the segment is not behind the end of the line. -/
theorem Placed.le (h : r.Placed line) {i : Nat} {rest : List Char}
    (here : afterBytes? r.segment i = some rest) : r.offset + i ≤ byteSize line := by
  obtain ⟨tail, hoffset⟩ := h.offset
  obtain ⟨before, hline, hplace⟩ := afterBytes?_eq_some_iff.1 (hoffset i rest here)
  rw [hline, hplace, byteSize_append]
  omega

/-- A segment does not begin behind the place where its text lies. -/
theorem Lies.start_le {start offset : Nat} {segment before lead tail : List Char}
    (lies : Lies line start offset segment before lead tail) : start ≤ offset := by
  rw [lies.start, lies.offset, byteSize_append]
  omega

/-- The segment of a sound reader does not begin behind the place where its text lies. -/
theorem Sound.start_le (h : r.Sound line) : r.start ≤ r.offset := by
  cases h with
  | program h => exact h.lies.start_le
  | built h => exact h.lies.start_le
  | searching h => exact h.lies.start_le

/-- A round leaves less to be read. -/
theorem Further.left_lt (h : r.Further r') (sound : r'.Sound line) :
    r'.left line < r.left line := by
  have placed := sound.placed
  have hindex : r'.offset + r'.index ≤ byteSize line := placed.le placed.index.choose_spec
  have hrunning : r'.offset + r'.running ≤ byteSize line := by
    cases hs : r'.search with
    | none => simpa [running, hs] using hindex
    | some s => simpa [running, hs] using placed.le (placed.place s hs).2.choose_spec
  have hstart := sound.start_le
  unfold left
  -- one of the two places is a later one, and neither goes back
  cases h with
  | scan same idle idle' later =>
    obtain ⟨-, -, hoffset, -⟩ := same
    simp only [running, idle, idle'] at hrunning ⊢
    omega
  | begin same idle search hsame later =>
    obtain ⟨-, -, hoffset, -⟩ := same
    simp only [running, idle, search] at hrunning ⊢
    omega
  | search same search search' hsame _ later =>
    obtain ⟨-, -, hoffset, -⟩ := same
    simp only [running, search, search'] at hrunning ⊢
    omega
  | close same search idle later place =>
    obtain ⟨-, -, hoffset, -⟩ := same
    simp only [running, search, idle] at hrunning ⊢
    omega
  | enter _ idle idle' _ later =>
    simp only [running, idle, idle'] at hrunning ⊢
    omega

/-! ### Another segment -/

/-- From a place of the line where a segment begins, the reader enters it. -/
theorem Sound.enter {before raw : List Char} {lefts : List Command} (whole : line = before ++ raw)
    (reads : Reads line lefts .program [] before raw) :
    ∃ r : SegmentReader, enter? line lefts (byteSize before) = some r ∧ r.Sound line ∧
      r.lefts = lefts ∧ r.start = byteSize before ∧ r.search = none := by
  obtain ⟨lead, tail, hraw, hdrop, hlead, htail⟩ := exists_trim isBlank raw
  -- what trimming takes from the front is told by the sizes before and after
  have hoffset : byteSize before + (byteSize raw - byteSize (raw.dropWhile isBlank))
      = byteSize (before ++ lead) := by
    have hsize := congrArg byteSize hraw
    rw [byteSize_append] at hsize
    rw [byteSize_append, hdrop, hsize]
    omega
  refine ⟨_, by rw [enter?, whole, afterBytes?_append]; rfl, ?_, rfl, rfl, rfl⟩
  have lies : Lies line (byteSize before)
      (byteSize before + (byteSize raw - byteSize (raw.dropWhile isBlank))) (stripEnds isBlank raw)
      before lead tail :=
    ⟨by rw [whole, ← hraw], rfl, hoffset, hlead, htail, by rw [← hraw]⟩
  have stands : stripEnds isBlank raw = [] ++ stripEnds isBlank raw := rfl
  refine .program ⟨lies, rfl, rfl, stands, rfl, by simp, ?_⟩
  rw [hraw] at reads
  simpa using reads.blanks hlead

/-! ### Rounds -/

section Rounds

variable {before lead tail seen rest text : List Char} {part : Part}

/-- The reader goes well through a round of its loops. -/
def GoesOn (line : List Char) (r : SegmentReader) : Prop :=
  Proceeds (round line) (Sound line) Further (Command.ofChars line) r

/-- A quote of the segment that is not closed is an error at its column in the line. -/
theorem unclosed_eq {behind : List Char}
    (lies : Lies line r.start r.offset r.segment before lead tail)
    (stands : r.segment = seen ++ quoteMark :: behind) (hbehind : quoteMark ∉ behind)
    (reads : Reads line r.lefts part text (before ++ (lead ++ seen))
      (quoteMark :: behind ++ tail)) :
    r.unclosed line (byteSize seen) = some (.stop (Command.ofChars line)) := by
  have hrest : quoteMark ∉ behind ++ tail := by
    rw [List.mem_append, not_or]
    exact ⟨hbehind, fun h => absurd (lies.blankTail _ h) (by decide)⟩
  rw [unclosed, lies.column?_eq stands, Option.map_some, reads.unclosed hrest]

/-- The end of the segment is the end of the line. -/
theorem goesOn_end (idle : r.search = none) (stands : r.segment = seen)
    (index : r.index = byteSize seen) (htail : ∀ c ∈ tail, isBlank c = true)
    (hbuilt : r.built none = part.finish (text ++ tail) none)
    (reads : Reads line r.lefts part text (before ++ (lead ++ seen)) tail) : r.GoesOn line := by
  have here : afterBytes? r.segment r.index = some [] := by
    have := afterBytes?_append seen []
    rwa [List.append_nil, ← index, ← stands] at this
  left
  simp only [round, idle, scanRound, here, Option.bind_some]
  rw [hbuilt, reads.ends htail]

/-- An operator ends the text before it.  Behind a pipe the reader enters another segment, and behind
a redirect it searches for a file. -/
theorem goesOn_operator (op : Operator) {behind : List Char}
    (lies : Lies line r.start r.offset r.segment before lead tail) (idle : r.search = none)
    (stands : r.segment = seen ++ op.symbol :: behind) (index : r.index = byteSize seen)
    (hbuilt : r.built (some op) = part.finish text (some op))
    (reads : Reads line r.lefts part text (before ++ (lead ++ seen))
      (op.symbol :: behind ++ tail)) : r.GoesOn line := by
  have here : afterBytes? r.segment r.index = some (op.symbol :: behind) := by
    rw [stands, index, afterBytes?_append]
  cases hfinish : part.finish text (some op) with
  | error e =>
    -- whatever pipes stand before, the line has this error
    left
    rw [hfinish] at hbuilt
    rw [reads.operator_error hfinish]
    cases op with
    | pipe => simp only [round, idle, scanRound, here, Option.bind_some, classify_pipe, hbuilt]
    | redirect direction =>
      simp only [round, idle, scanRound, here, Option.bind_some, classify_redirect, hbuilt]
  | ok command =>
    right
    rw [hfinish] at hbuilt
    cases op with
    | pipe =>
      have whole : line = ((before ++ (lead ++ seen)) ++ ['|']) ++ (behind ++ tail) := by
        rw [lies.whole, stands]
        simp [Operator.symbol]
      -- a place of the segment, moved by the offset, is one of the line
      have hsize : r.offset + r.index + (Operator.symbol .pipe).utf8Size
          = byteSize ((before ++ (lead ++ seen)) ++ ['|']) := by
        simp [lies.offset, index, Operator.symbol]
        omega
      obtain ⟨r', henter, sound, hlefts, hstart, idle'⟩ := Sound.enter whole (reads.pipe hfinish)
      rw [← hsize] at henter hstart
      have hpos := (Operator.symbol .pipe).utf8Size_pos
      have hoffset := lies.start_le
      refine ⟨r', ?_, sound, .enter hlefts idle idle' (by omega) (by omega)⟩
      simp only [round, idle, scanRound, here, Option.bind_some, classify_pipe, hbuilt, henter,
        Option.map_some]
    | redirect direction =>
      let place := r.index + (Operator.symbol (.redirect direction)).utf8Size
      have hplace : place = byteSize (seen ++ [direction.symbol]) := by
        simp [place, index, Operator.symbol]
      have hreads : Reads line r.lefts (.target command direction) []
          (before ++ (lead ++ (seen ++ [direction.symbol]))) (behind ++ tail) := by
        simpa using reads.redirect hfinish
      exact ⟨{ r with current := none, search := some ⟨command, direction, place, place⟩ },
        by simp only [round, idle, scanRound, here, Option.bind_some, classify_redirect, hbuilt,
          place],
        .searching ⟨lies, rfl, stands, index, hplace, hplace, hreads⟩,
        .begin ⟨rfl, rfl, rfl, rfl⟩ idle rfl rfl (Nat.lt_add_of_pos_right (Char.utf8Size_pos _))⟩

/-! ### Rounds in the text of a program -/

/-- The reader stands before what it has not read of its segment. -/
theorem InProgram.here (h : InProgram line r before lead tail seen rest) :
    afterBytes? r.segment r.index = some rest := by
  rw [h.stands, h.index, afterBytes?_append]

/-- A quote begins a run, which is taken as it stands. -/
theorem InProgram.quote {behind : List Char}
    (h : InProgram line r before lead tail seen (quoteMark :: behind)) : r.GoesOn line := by
  by_cases hquote : quoteMark ∈ behind
  · obtain ⟨run, behind, rfl, hrun⟩ := List.eq_append_cons_of_mem hquote
    have closing : closingQuote? r.segment r.index
        = some (some (byteSize (seen ++ quoteMark :: run))) := by
      rw [h.stands, h.index, closingQuote?_closed seen behind hrun]
    have stands : r.segment = (seen ++ quoteMark :: (run ++ [quoteMark])) ++ behind := by
      simp [h.stands]
    have slice : slice? r.segment r.index (byteSize (seen ++ quoteMark :: (run ++ [quoteMark])))
        = some (quoteMark :: (run ++ [quoteMark])) := by
      rw [stands, h.index, List.append_assoc, slice?_append]
    -- the run brings two quotes
    have closed : Even ((r.pending ++ quoteMark :: (run ++ [quoteMark])).count quoteMark) := by
      have hpair : (r.pending ++ quoteMark :: (run ++ [quoteMark])).count quoteMark
          = r.pending.count quoteMark + 2 := by simp [List.count_eq_zero.2 hrun]
      rw [hpair]
      exact h.closed.add even_two
    have reads := h.reads
    simp only [List.cons_append, List.append_assoc] at reads
    right
    refine ⟨{ r with
        index := byteSize (seen ++ quoteMark :: (run ++ [quoteMark]))
        pending := r.pending ++ quoteMark :: (run ++ [quoteMark]) }, ?_,
      .program ⟨h.lies, h.idle, h.fresh, stands, rfl, closed, by simpa using reads.run hrun⟩,
      .scan ⟨rfl, rfl, rfl, rfl⟩ h.idle h.idle ?_⟩
    · simp only [round, h.idle, scanRound, h.here, Option.bind_some, classify_quoteMark, closing,
        byteSize_closed, slice, Option.map_some]
    · show r.index < byteSize (seen ++ quoteMark :: (run ++ [quoteMark]))
      rw [h.index]
      exact byteSize_lt_append ..
  · -- the column of the quote is counted in the line, not in the segment
    left
    have closing : closingQuote? r.segment r.index = some none := by
      rw [h.stands, h.index, closingQuote?_unclosed seen behind hquote]
    simp only [round, h.idle, scanRound, h.here, Option.bind_some, classify_quoteMark, closing]
    rw [h.index]
    exact unclosed_eq h.lies h.stands hquote h.reads

/-- A blank or a character of a word is taken. -/
theorem InProgram.pass {c : Char} {behind : List Char}
    (h : InProgram line r before lead tail seen (c :: behind)) (hop : operator? c = none)
    (hc : c ≠ quoteMark) (hclass : classify c = .blank ∨ classify c = .literal) :
    r.GoesOn line := by
  have closed : Even ((r.pending ++ [c]).count quoteMark) := by
    have hcount : (r.pending ++ [c]).count quoteMark = r.pending.count quoteMark := by simp [hc]
    rw [hcount]
    exact h.closed
  right
  refine ⟨{ r with index := r.index + c.utf8Size, pending := r.pending ++ [c] }, ?_,
    .program ⟨h.lies, h.idle, h.fresh, ?_, ?_, closed, by simpa using h.reads.pass hop hc⟩,
    .scan ⟨rfl, rfl, rfl, rfl⟩ h.idle h.idle (Nat.lt_add_of_pos_right c.utf8Size_pos)⟩
  · rcases hclass with hclass | hclass <;>
      simp only [round, h.idle, scanRound, h.here, Option.bind_some, hclass]
  · show r.segment = (seen ++ [c]) ++ behind
    simp [h.stands]
  · simp [h.index]

/-- A reader in the text of a program goes well through every round. -/
theorem InProgram.goesOn (h : InProgram line r before lead tail seen rest) : r.GoesOn line := by
  -- neither the blanks at the front nor those at the end of the line matter
  have hbuilt : ∀ op tail', (∀ c ∈ tail', isBlank c = true) →
      r.built op = Part.program.finish (lead ++ r.pending ++ tail') op := by
    intro op tail' htail'
    rw [List.append_assoc, Part.program_finish_pad h.lies.blankLead htail' h.closed]
    simp [built, h.fresh]
  have hbuilt' : ∀ op, r.built (some op) = Part.program.finish (lead ++ r.pending) (some op) := by
    intro op
    simpa using hbuilt (some op) [] (by simp)
  cases rest with
  | nil =>
    exact goesOn_end h.idle (by simpa using h.stands) h.index h.lies.blankTail
      (hbuilt none tail h.lies.blankTail) h.reads
  | cons c behind =>
    rcases classify_cases c with rfl | ⟨op, rfl⟩ | ⟨hop, hc, hclass⟩
    · exact h.quote
    · exact goesOn_operator op h.lies h.idle h.stands h.index (hbuilt' op) h.reads
    · exact h.pass hop hc hclass

/-! ### Rounds behind the file of a redirect -/

/-- A reader behind the file of a redirect goes well through every round. -/
theorem Built.goesOn {inner command : Command} {direction : Direction}
    (h : Built line r before lead tail seen rest text inner direction command) :
    r.GoesOn line := by
  have hbuilt : ∀ op, r.built op = .ok command := fun op => by simp [built, h.current]
  rcases h.ended with rfl | ⟨op, behind, rfl⟩
  · refine goesOn_end h.idle (by simpa using h.stands) h.index h.lies.blankTail ?_ h.reads
    rw [hbuilt, Part.target_finish_tail h.lies.blankTail inner direction text none none, h.file]
  · exact goesOn_operator op h.lies h.idle h.stands h.index ((hbuilt _).trans h.file.symm) h.reads

/-! ### Rounds of a search -/

section Search

variable {s : Search} {mark : Char}

/-- The text that is searched ends where the search stands. -/
theorem Searching.there (h : Searching line r s before lead tail seen mark text rest) :
    r.segment = (seen ++ mark :: text) ++ rest := by
  simp [h.stands]

/-- The search stands before what it has not read of its segment. -/
theorem Searching.here (h : Searching line r s before lead tail seen mark text rest) :
    afterBytes? r.segment s.place = some rest := by
  rw [h.there, h.place, afterBytes?_append]

/-- At its end, the text names a file, or else it is an error of the line. -/
theorem Searching.take (h : Searching line r s before lead tail seen mark text rest) {stop : Nat}
    (hstop : stop = byteSize (seen ++ mark :: text))
    (ended : rest = [] ∨ ∃ op : Operator, ∃ behind, rest = op.symbol :: behind)
    (hround : r.round line = r.take s stop) : r.GoesOn line := by
  have slice : slice? r.segment s.first stop = some text := by
    have hsplit : r.segment = (seen ++ [mark]) ++ (text ++ rest) := by simp [h.stands]
    have hstop' : stop = byteSize ((seen ++ [mark]) ++ text) := by simp [hstop]
    rw [hsplit, h.first, hstop', slice?_append]
  rw [SegmentReader.take, slice, Option.map_some] at hround
  cases file : (Part.target s.inner s.direction).finish text none with
  | error e =>
    left
    -- the operator behind the text does not matter: a file is missing with or without one
    have bad : Command.ofChars line = .error e := by
      rcases ended with rfl | ⟨op, behind, rfl⟩
      · rw [h.reads.ends h.lies.blankTail,
          Part.target_finish_tail h.lies.blankTail s.inner s.direction text none none, file,
          joinLefts_error]
      · exact h.reads.operator_error file
    rw [hround, file, bad]
  | ok command =>
    right
    rw [file] at hround
    refine ⟨_, hround, .built ⟨h.lies, rfl, rfl, h.there, hstop, ended, file, h.reads⟩,
      .close ⟨rfl, rfl, rfl, rfl⟩ h.search rfl ?_ (Nat.le_of_eq (h.place.trans hstop.symm))⟩
    show r.index < stop
    rw [h.index, hstop]
    exact byteSize_lt_append ..

/-- A run between quotes is passed over. -/
theorem Searching.quote {behind : List Char}
    (h : Searching line r s before lead tail seen mark text (quoteMark :: behind)) :
    r.GoesOn line := by
  by_cases hquote : quoteMark ∈ behind
  · obtain ⟨run, behind, rfl, hrun⟩ := List.eq_append_cons_of_mem hquote
    have closing : closingQuote? r.segment s.place
        = some (some (byteSize ((seen ++ mark :: text) ++ quoteMark :: run))) := by
      rw [h.there, h.place, closingQuote?_closed _ behind hrun]
    have stands : r.segment
        = seen ++ mark :: ((text ++ quoteMark :: (run ++ [quoteMark])) ++ behind) := by
      simp [h.stands]
    have reads := h.reads
    simp only [List.cons_append, List.append_assoc] at reads
    -- operators in the run do not end the search
    right
    refine ⟨{ r with search := some { s with
        place := byteSize ((seen ++ mark :: text) ++ quoteMark :: (run ++ [quoteMark])) } }, ?_,
      .searching ⟨h.lies, rfl, stands, h.index, h.first, by simp, by simpa using reads.run hrun⟩,
      .search ⟨rfl, rfl, rfl, rfl⟩ h.search rfl rfl rfl ?_⟩
    · simp only [round, h.search, searchRound, h.here, Option.bind_some, classify_quoteMark, closing,
        byteSize_closed]
    · show s.place < byteSize ((seen ++ mark :: text) ++ quoteMark :: (run ++ [quoteMark]))
      rw [h.place]
      exact byteSize_lt_append ..
  · left
    have closing : closingQuote? r.segment s.place = some none := by
      rw [h.there, h.place, closingQuote?_unclosed _ behind hquote]
    simp only [round, h.search, searchRound, h.here, Option.bind_some, classify_quoteMark, closing]
    rw [h.place]
    exact unclosed_eq h.lies h.there hquote h.reads

/-- Any other character that is no operator is passed over. -/
theorem Searching.pass {c : Char} {behind : List Char}
    (h : Searching line r s before lead tail seen mark text (c :: behind))
    (hop : operator? c = none) (hc : c ≠ quoteMark)
    (hclass : classify c = .blank ∨ classify c = .literal) : r.GoesOn line := by
  have stands : r.segment = seen ++ mark :: ((text ++ [c]) ++ behind) := by simp [h.stands]
  have place : s.place + c.utf8Size = byteSize (seen ++ mark :: (text ++ [c])) := by
    simp [h.place, Nat.add_assoc]
  right
  refine ⟨{ r with search := some { s with place := s.place + c.utf8Size } }, ?_,
    .searching ⟨h.lies, rfl, stands, h.index, h.first, place,
      by simpa using h.reads.pass hop hc⟩,
    .search ⟨rfl, rfl, rfl, rfl⟩ h.search rfl rfl rfl (Nat.lt_add_of_pos_right c.utf8Size_pos)⟩
  rcases hclass with hclass | hclass <;>
    simp only [round, h.search, searchRound, h.here, Option.bind_some, hclass]

/-- A search goes well through every round. -/
theorem Searching.goesOn (h : Searching line r s before lead tail seen mark text rest) :
    r.GoesOn line := by
  cases rest with
  | nil =>
    refine h.take (show byteSize r.segment = _ by simp [h.stands]) (.inl rfl) ?_
    simp only [round, h.search, searchRound, h.here, Option.bind_some]
  | cons c behind =>
    rcases classify_cases c with rfl | ⟨op, rfl⟩ | ⟨hop, hc, hclass⟩
    · exact h.quote
    · refine h.take h.place (.inr ⟨op, behind, rfl⟩) ?_
      cases op with
      | pipe => simp only [round, h.search, searchRound, h.here, Option.bind_some, classify_pipe]
      | redirect direction =>
        simp only [round, h.search, searchRound, h.here, Option.bind_some, classify_redirect]
    · exact h.pass hop hc hclass

end Search

end Rounds

/-- Every round of a sound reader goes well. -/
theorem Sound.goesOn (h : r.Sound line) : r.GoesOn line := by
  cases h with
  | program h => exact h.goesOn
  | built h => exact h.goesOn
  | searching h => exact h.goesOn

end SegmentReader

/-- **Lines are read in place.** The reader of words ends with the words of every text, and the
reader of segments with the command of every line.  At the beginning of every round, in every
segment, the offsets that the readers hold name places of their texts.  Every round has a value, so
every offset that it uses names a place too.  And it goes further: it advances the index of its
loop, or it begins to search for another word or enters another segment, with less left to read. -/
theorem read_in_place (line : String) :
    (∀ text, GoesWell (WordReader.round text) (WordReader.Placed text) WordReader.Further
      { rest := text } (words text)) ∧
    ∃ r, SegmentReader.enter? line.toList [] 0 = some r ∧
      GoesWell (SegmentReader.round line.toList) (SegmentReader.Placed line.toList)
        SegmentReader.Further r (Command.ofLine line) := by
  refine ⟨WordReader.goesWell, ?_⟩
  obtain ⟨r, henter, sound, -⟩ :=
    SegmentReader.Sound.enter (show line.toList = [] ++ line.toList from rfl) (.start line.toList)
  exact ⟨r, henter, GoesWell.of_rounds (SegmentReader.left line.toList) sound
    (fun r h => SegmentReader.Sound.placed h) (fun r h => h.goesOn)
    fun r r' h further => further.left_lt h⟩

end LineShell
