import LineShell.Proofs.InPlace.Offset
import LineShell.Proofs.Reading.Words
import LineShell.Word.InPlace

namespace LineShell

/-!
# Words are read in place

A reader of words has always read a start of its text, and the byte offset it holds is the size of
that start.  What it has still to say is what reading on from there says.

* `WordReader.Placed` — the offsets of a reader name places of its text.
* `WordReader.Further` — a round that goes further.
* `WordReader.Sound` — the invariant: both readers stand at the same place.
* `WordReader.goesWell` — the words of any text are read in place.
-/

/-- Ending a word at the end of a text or at a blank, or beginning to search for another one there,
makes no difference for the words on the whole. -/
theorem wordsFrom_begin {rest : List Char} (ends : ∀ c cs, rest = c :: cs → isBlank c = true)
    (word : List Char) (found : List String) (column : Nat) :
    (wordsFrom [] none column rest).map ((pushWord word found).reverse ++ ·)
      = (wordsFrom word none column rest).map (found.reverse ++ ·) := by
  -- the word is the last of those found, or the first of those that follow
  have hpush : ∀ argv, (pushWord word found).reverse ++ argv
      = found.reverse ++ pushWord word argv := by
    intro argv
    unfold pushWord
    split <;> simp
  cases rest with
  | nil => exact congrArg Except.ok (hpush [])
  | cons c cs =>
    have hblank : isBlank c = true := ends c cs rfl
    rw [wordsFrom_cons, if_pos ⟨rfl, hblank⟩, wordsFrom_cons, if_pos ⟨rfl, hblank⟩]
    cases wordsFrom [] none (column + 1) cs with
    | error e => rfl
    | ok argv => exact congrArg Except.ok (hpush argv)

namespace WordReader

/-! ### What is said of a reader -/

/-- The reader stands in front of a character or at the end of the text, behind the place where the
search for the current word began.  The offset that it holds for an open quote is that of a
quote. -/
structure Placed (source : List Char) (r : WordReader) : Prop where
  place : afterBytes? source r.place = some r.rest
  began : ∃ behind, afterBytes? source r.began = some behind
  late : r.began ≤ r.place
  quote : ∀ q, r.quote = some q → ∃ behind, afterBytes? source q = some (quoteMark :: behind)

/-- A round goes further: it reads a character, or it begins a search behind the place where the
last one began. -/
inductive Further (r r' : WordReader) : Prop where
  | pass : r'.began = r.began → r.place < r'.place → Further r r'
  | begin : r'.began = r.place → r'.place = r.place → r'.rest = r.rest → r.began < r'.began →
      Further r r'

/-- The search for the current word began somewhere in what was read, and before its end when the
word has begun. -/
def BeganIn (r : WordReader) (before : List Char) : Prop :=
  ∃ earlier spent, before = earlier ++ spent ∧ r.began = byteSize earlier ∧
    (r.started = true → spent ≠ [])

/-- The reader stands outside quotes.  The words of the text are those found and those that reading
on finds, behind what was read of the current word. -/
structure Outside (source : List Char) (r : WordReader) (before : List Char) : Prop where
  whole : source = before ++ r.rest
  place : r.place = byteSize before
  quote : r.quote = none
  began : r.BeganIn before
  fresh : r.started = false → r.word = []
  answer : words source
    = (wordsFrom r.word none before.length r.rest).map (r.found.reverse ++ ·)

/-- The reader stands behind a quote and a run of other characters. -/
structure Inside (source : List Char) (r : WordReader) (before run : List Char) : Prop where
  whole : source = before ++ quoteMark :: (run ++ r.rest)
  place : r.place = byteSize (before ++ quoteMark :: run)
  quote : r.quote = some (byteSize before)
  started : r.started = true
  began : r.BeganIn (before ++ quoteMark :: run)
  answer : words source
    = (wordsFrom r.word (some before.length) (before ++ quoteMark :: run).length r.rest).map
        (r.found.reverse ++ ·)

/-- The invariant: the reader has read a start of the text. -/
inductive Sound (source : List Char) (r : WordReader) : Prop where
  | outside {before : List Char} (h : Outside source r before)
  | inside {before run : List Char} (h : Inside source r before run)

variable {source : List Char} {r r' : WordReader} {before : List Char} {c : Char} {cs : List Char}

/-- A search has begun in what was read, or at its end. -/
theorem BeganIn.le (h : r.BeganIn before) : r.began ≤ byteSize before := by
  obtain ⟨earlier, spent, rfl, hbegan, -⟩ := h
  rw [hbegan, byteSize_append]
  omega

/-- Once a word has begun, its search lies before the end of what was read. -/
theorem BeganIn.lt (h : r.BeganIn before) (started : r.started = true) :
    r.began < byteSize before := by
  obtain ⟨earlier, spent, rfl, hbegan, hspent⟩ := h
  obtain ⟨c, cs, rfl⟩ := List.exists_cons_of_ne_nil (hspent started)
  have := c.utf8Size_pos
  rw [hbegan, byteSize_append, byteSize_cons]
  omega

/-- A search goes on over one more character. -/
theorem BeganIn.pass (h : r.BeganIn before) (c : Char) (r' : WordReader)
    (began : r'.began = r.began) : r'.BeganIn (before ++ [c]) := by
  obtain ⟨earlier, spent, rfl, hbegan, -⟩ := h
  exact ⟨earlier, spent ++ [c], by simp, by rw [began, hbegan], by simp⟩

/-- The place where a search began is a place of the text. -/
theorem BeganIn.behind (h : r.BeganIn before) (rest : List Char) :
    ∃ behind, afterBytes? (before ++ rest) r.began = some behind := by
  obtain ⟨earlier, spent, rfl, hbegan, -⟩ := h
  exact ⟨spent ++ rest, by rw [hbegan, List.append_assoc, afterBytes?_append]⟩

/-- A sound reader is in its place. -/
theorem Sound.placed (h : r.Sound source) : r.Placed source := by
  cases h with
  | @outside before h =>
    exact
      { place := by rw [h.place, h.whole, afterBytes?_append]
        began := by rw [h.whole]; exact h.began.behind r.rest
        late := by rw [h.place]; exact h.began.le
        quote := by simp [h.quote] }
  | @inside before run h =>
    have split : source = (before ++ quoteMark :: run) ++ r.rest := by simp [h.whole]
    refine
      { place := by rw [h.place, split, afterBytes?_append]
        began := by rw [split]; exact h.began.behind r.rest
        late := by rw [h.place]; exact h.began.le
        quote := fun q hq => ⟨run ++ r.rest, ?_⟩ }
    obtain rfl : byteSize before = q := Option.some.inj (h.quote.symm.trans hq)
    rw [h.whole, afterBytes?_append]

/-- The reader does not stand behind the end of its text. -/
theorem Placed.le (h : r.Placed source) : r.place ≤ byteSize source := by
  obtain ⟨before, hsource, hplace⟩ := afterBytes?_eq_some_iff.1 h.place
  rw [hsource, hplace, byteSize_append]
  omega

/-- What is left to read, for the reader and for the search it is in. -/
def left (source : List Char) (r : WordReader) : Nat :=
  2 * byteSize source - (r.began + r.place)

/-- A round leaves less to be read, by the reader or by its search. -/
theorem Further.left_lt (h : r.Further r') (placed : r'.Placed source) :
    r'.left source < r.left source := by
  have hend := placed.le
  have hlate := placed.late
  unfold left
  -- a search that begins anew does so behind the last one, at the place of the reader
  cases h with
  | pass began place => omega
  | begin began place rest later => omega

/-! ### Rounds -/

/-- The reader goes well through a round of its loops. -/
def GoesOn (source : List Char) (r : WordReader) : Prop :=
  Proceeds (round source) (Sound source) Further (words source) r

/-- The next character is behind the place of the reader. -/
theorem place_lt_pass (r : WordReader) (c : Char) (cs : List Char) :
    r.place < (r.pass c cs).place :=
  Nat.lt_add_of_pos_right c.utf8Size_pos

/-- Behind a word that was read, a search for another one begins. -/
theorem Outside.begin (h : r.Outside source before) (started : r.started = true)
    (ends : ∀ c cs, r.rest = c :: cs → isBlank c = true) :
    r.begin.Sound source ∧ r.Further r.begin := by
  have answer : words source
      = (wordsFrom [] none before.length r.rest).map ((pushWord r.word r.found).reverse ++ ·) := by
    rw [h.answer]
    exact (wordsFrom_begin ends r.word r.found _).symm
  have began : r.begin.BeganIn before := ⟨before, [], by simp, h.place, by simp [WordReader.begin]⟩
  refine ⟨.outside ⟨h.whole, h.place, h.quote, began, fun _ => rfl, answer⟩, .begin rfl rfl rfl ?_⟩
  show r.began < r.place
  rw [h.place]
  exact h.began.lt started

/-- At the end of the text a word is complete, or all of them are found. -/
theorem Outside.goesOn_nil (h : r.Outside source before) (hrest : r.rest = []) :
    r.GoesOn source := by
  cases started : r.started with
  | true =>
    obtain ⟨sound, further⟩ := h.begin started (by simp [hrest])
    exact .inr ⟨r.begin, by simp [round, h.quote, hrest, started], sound, further⟩
  | false =>
    -- no word has begun, so those found are all of them
    left
    rw [h.answer, hrest, h.fresh started]
    simp [round, h.quote, hrest, started, wordsFrom, pushWord, Except.map]

/-- A blank ends a word, or it is passed over. -/
theorem Outside.goesOn_blank (h : r.Outside source before) (hrest : r.rest = c :: cs)
    (blank : isBlank c = true) : r.GoesOn source := by
  right
  cases started : r.started with
  | true =>
    obtain ⟨sound, further⟩ := h.begin started fun c' cs' hrest' => by
      rw [hrest] at hrest'
      cases hrest'
      exact blank
    exact ⟨r.begin, by simp [round, h.quote, hrest, started, blank], sound, further⟩
  | false =>
    have answer : words source
        = (wordsFrom r.word none (before ++ [c]).length cs).map (r.found.reverse ++ ·) := by
      rw [h.answer, hrest, wordsFrom_cons, if_pos ⟨rfl, blank⟩, h.fresh started, List.length_append]
      cases wordsFrom [] none (before.length + 1) cs <;> rfl
    exact ⟨r.pass c cs, by simp [round, h.quote, hrest, started, blank],
      .outside ⟨by simp [pass, h.whole, hrest], by simp [pass, h.place], h.quote,
        h.began.pass c _ rfl, h.fresh, answer⟩, .pass rfl (r.place_lt_pass c cs)⟩

/-- A quote opens a run. -/
theorem Outside.goesOn_quote (h : r.Outside source before) (hrest : r.rest = quoteMark :: cs) :
    r.GoesOn source := by
  have notBlank : isBlank quoteMark = false := by decide
  have answer : words source
      = (wordsFrom r.word (some before.length) (before ++ [quoteMark]).length cs).map
          (r.found.reverse ++ ·) := by
    rw [h.answer, hrest, wordsFrom_cons, if_neg (by simp [notBlank]), if_pos rfl, nextQuote,
      if_pos rfl, List.length_append]
    rfl
  have whole : source = before ++ quoteMark :: ([] ++ cs) := by simp [h.whole, hrest]
  exact .inr ⟨{ r.pass quoteMark cs with started := true, quote := some r.place },
    by simp [round, h.quote, hrest, notBlank],
    .inside ⟨whole, by simp [pass, h.place], by simp [h.place], rfl, h.began.pass quoteMark _ rfl,
      answer⟩, .pass rfl (r.place_lt_pass quoteMark cs)⟩

/-- Any other character belongs to a word. -/
theorem Outside.goesOn_literal (h : r.Outside source before) (hrest : r.rest = c :: cs)
    (notBlank : ¬ isBlank c = true) (hc : c ≠ quoteMark) : r.GoesOn source := by
  have answer : words source
      = (wordsFrom (c :: r.word) none (before ++ [c]).length cs).map (r.found.reverse ++ ·) := by
    rw [h.answer, hrest, wordsFrom_cons, if_neg (fun ends => notBlank ends.2), if_neg hc, nextQuote,
      if_neg hc, List.length_append]
    rfl
  exact .inr ⟨{ r.pass c cs with started := true, word := c :: r.word },
    by simp [round, h.quote, hrest, notBlank, hc],
    .outside ⟨by simp [pass, h.whole, hrest], by simp [pass, h.place], h.quote,
      h.began.pass c _ rfl, by simp, answer⟩, .pass rfl (r.place_lt_pass c cs)⟩

/-- A reader outside quotes goes well through every round. -/
theorem Outside.goesOn (h : r.Outside source before) : r.GoesOn source := by
  cases hrest : r.rest with
  | nil => exact h.goesOn_nil hrest
  | cons c cs =>
    by_cases blank : isBlank c = true
    · exact h.goesOn_blank hrest blank
    by_cases hc : c = quoteMark
    · subst hc
      exact h.goesOn_quote hrest
    · exact h.goesOn_literal hrest blank hc

section Inside

variable {run : List Char}

/-- At the end of the text the run is not closed.  The place of its quote is one of the text, so its
column can be told. -/
theorem Inside.goesOn_nil (h : r.Inside source before run) (hrest : r.rest = []) :
    r.GoesOn source := by
  have column : column? source (byteSize before) = some before.length := by
    rw [h.whole, column?_append]
  left
  rw [h.answer, hrest]
  simp only [round, h.quote, hrest, column]
  rfl

/-- Any character is read, and a quote closes the run. -/
theorem Inside.goesOn_cons (h : r.Inside source before run) (hrest : r.rest = c :: cs) :
    r.GoesOn source := by
  have split : before ++ quoteMark :: (run ++ [c]) = (before ++ quoteMark :: run) ++ [c] := by simp
  have whole : source = before ++ quoteMark :: ((run ++ [c]) ++ cs) := by simp [h.whole, hrest]
  have place : (r.pass c cs).place = byteSize (before ++ quoteMark :: (run ++ [c])) := by
    rw [split, byteSize_append, ← h.place]
    rfl
  have began : ∀ r' : WordReader, r'.began = r.began →
      r'.BeganIn (before ++ quoteMark :: (run ++ [c])) := by
    intro r' hbegan
    rw [split]
    exact h.began.pass c r' hbegan
  have answer := h.answer
  have hlength : (before ++ quoteMark :: (run ++ [c])).length
      = (before ++ quoteMark :: run).length + 1 := by
    rw [split, List.length_append]
    rfl
  rw [hrest, wordsFrom_cons, if_neg (by simp), ← hlength] at answer
  right
  by_cases hc : c = quoteMark
  · -- the run is closed, and the reader stands outside quotes again, in a word that has begun
    rw [if_pos hc, nextQuote, if_pos hc] at answer
    refine ⟨{ r.pass c cs with quote := none }, by simp [round, h.quote, hrest, hc],
      .outside ⟨by simp [whole, pass], place, rfl, began _ rfl, fun fresh => ?_, answer⟩,
      .pass rfl (r.place_lt_pass c cs)⟩
    exact absurd (h.started.symm.trans fresh) (by simp)
  · rw [if_neg hc, nextQuote, if_neg hc] at answer
    exact ⟨{ r.pass c cs with word := c :: r.word }, by simp [round, h.quote, hrest, hc],
      .inside ⟨whole, place, h.quote, h.started, began _ rfl, answer⟩,
      .pass rfl (r.place_lt_pass c cs)⟩

end Inside

/-- Every round of a sound reader goes well. -/
theorem Sound.goesOn (h : r.Sound source) : r.GoesOn source := by
  cases h with
  | outside h => exact h.goesOn
  | inside h =>
    cases hrest : r.rest with
    | nil => exact h.goesOn_nil hrest
    | cons c cs => exact h.goesOn_cons hrest

/-- **Words are read in place.** For every text the reader of words ends with its words, without
ever using an offset that names no place of the text. -/
theorem goesWell (text : List Char) :
    GoesWell (round text) (Placed text) Further { rest := text } (words text) := by
  have answer : words text = (words text).map ([] ++ ·) := by
    cases words text <;> rfl
  have start : Outside text { rest := text } [] :=
    ⟨rfl, rfl, rfl, ⟨[], [], rfl, rfl, by simp⟩, fun _ => rfl, answer⟩
  exact GoesWell.of_rounds (left text) (.outside start) (fun r h => Sound.placed h)
    (fun r h => h.goesOn) fun r r' h further => further.left_lt h.placed

end WordReader

end LineShell
