import LineShell.Proofs.Reading.Words
import Mathlib.Algebra.Ring.Parity

namespace LineShell

/-!
# Words and the stretches that they stand in

A blank outside quotes parts a text, any other character does not.  What stands between two such
blanks is a stretch, and a word is a stretch without its quotes.

* `marked`, `runsFrom`, `stretchesOf` — the stretches of a text.
* `spoken` — the words of stretches.
* `wordsFrom_eq_spoken`, `runsFrom_open` — reading all words at once, from a text that leaves no
  quote open and from one that does.
* `Scanner.Ahead`, `nextFrom_says` — what a scanner has still to say, and that it says the first of
  it.
* `words_spoken` — the words of a text, all at once and one at a time.
-/

/-! ### Stretches -/

/-- The characters of a text, each with the number of quotes before it; `quotes` quotes stand before
the text. -/
def marked (quotes : Nat) : List Char → List (Nat × Char)
  | [] => []
  | c :: cs => (quotes, c) :: marked (countQuote quotes c) cs

/-- A character parts a text when it is a blank outside quotes: an even number of quotes stand
before it. -/
def isBreak (m : Nat × Char) : Bool :=
  decide (Even m.1) && isBlank m.2

/-- What stands between the breaks of a text, nothing where two of them meet. -/
def runsFrom (quotes : Nat) (cs : List Char) : List (List Char) :=
  ((marked quotes cs).splitOnP isBreak).map (·.map Prod.snd)

/-- The stretches of a text: its longest runs of characters without a break. -/
def stretchesOf (text : List Char) : List (List Char) :=
  (runsFrom 0 text).filter (!·.isEmpty)

/-- The words of stretches: their characters without the quotes, where some are left. -/
def spoken (stretches : List (List Char)) : List String :=
  ((stretches.map unquote).filter (!·.isEmpty)).map String.ofList

/-- A text without characters has one run, with nothing in it. -/
@[simp]
theorem runsFrom_nil (quotes : Nat) : runsFrom quotes [] = [[]] := by
  simp [runsFrom, marked, List.splitOnP_nil]

/-- Every text has a run. -/
theorem runsFrom_ne_nil (quotes : Nat) (cs : List Char) : runsFrom quotes cs ≠ [] := by
  simp [runsFrom, List.splitOnP_ne_nil]

/-- Only a blank with an even number of quotes before it parts a text. -/
theorem isBreak_iff {quotes : Nat} {c : Char} :
    isBreak (quotes, c) = true ↔ Even quotes ∧ isBlank c = true := by
  simp [isBreak]

/-- A quote parts nothing. -/
theorem not_isBreak_quoteMark (quotes : Nat) : isBreak (quotes, quoteMark) = false := by
  have notBlank : isBlank quoteMark = false := by decide
  simp [isBreak, notBlank]

/-- A break ends a run. -/
theorem runsFrom_break {quotes : Nat} {c : Char} (h : isBreak (quotes, c) = true) (cs : List Char) :
    runsFrom quotes (c :: cs) = [] :: runsFrom quotes cs := by
  have hcount : countQuote quotes c = quotes := if_neg (ne_quoteMark_of_isBlank (isBreak_iff.1 h).2)
  rw [runsFrom, marked, List.splitOnP_cons_eq_if_modifyHead, if_pos h, hcount]
  rfl

/-- Any other character belongs to the run. -/
theorem runsFrom_plain {quotes : Nat} {c : Char} (h : isBreak (quotes, c) = false)
    (cs : List Char) :
    runsFrom quotes (c :: cs) = (runsFrom (countQuote quotes c) cs).modifyHead (c :: ·) := by
  rw [runsFrom, marked, List.splitOnP_cons_eq_if_modifyHead, if_neg (by simp [h]), runsFrom]
  cases (marked (countQuote quotes c) cs).splitOnP isBreak <;> rfl

/-- Characters in front of a run that grows at its own front. -/
theorem modifyHead_append_cons (lead : List Char) (c : Char) (runs : List (List Char)) :
    (runs.modifyHead (c :: ·)).modifyHead (lead ++ ·) = runs.modifyHead ((lead ++ [c]) ++ ·) := by
  cases runs <;> simp

theorem modifyHead_nil_append (runs : List (List Char)) :
    runs.modifyHead (([] : List Char) ++ ·) = runs := by
  cases runs <;> rfl

/-! ### Words -/

@[simp]
theorem spoken_nil : spoken [] = [] := rfl

/-- The word of the first run is put in front, unless it is empty. -/
theorem spoken_cons (run : List Char) (runs : List (List Char)) :
    spoken (run :: runs) = pushWord (unquote run).reverse (spoken runs) := by
  unfold pushWord
  cases h : unquote run with
  | nil => simp [spoken, h]
  | cons c cs => simp [spoken, h]

/-- A run that is empty has no word. -/
theorem spoken_filter (runs : List (List Char)) :
    spoken (runs.filter (!·.isEmpty)) = spoken runs := by
  induction runs with
  | nil => rfl
  | cons run runs ih =>
    cases run with
    | nil => simpa [spoken_cons, unquote, pushWord] using ih
    | cons c cs => simp [spoken_cons, ih]

/-- Where a run starts nothing is read of its word. -/
theorem unquote_nil : unquote [] = ([] : List Char).reverse := rfl

/-- What is read of a word when a character is read: all but a quote. -/
theorem unquote_concat {lead word : List Char} (h : unquote lead = word.reverse) (c : Char) :
    unquote (lead ++ [c]) = (if c = quoteMark then word else c :: word).reverse := by
  unfold unquote at h ⊢
  rw [List.filter_append, h]
  by_cases hc : c = quoteMark <;> simp [hc]

variable {quote : Option Nat} {quotes column : Nat} {cs lead word : List Char}

/-- A reader outside quotes meets a break where it meets a blank. -/
theorem isBreak_iff_quote (h : quote = none ↔ Even quotes) {c : Char} :
    isBreak (quotes, c) = true ↔ quote = none ∧ isBlank c = true := by
  rw [isBreak_iff, h]

/-- **All words at once.** A text that leaves no quote open has the words of its runs, the first of
which goes on with what was read before. -/
theorem wordsFrom_eq_spoken (h : quote = none ↔ Even quotes) (hword : unquote lead = word.reverse)
    (closed : openQuote quote column cs = none) :
    wordsFrom word quote column cs
      = .ok (spoken ((runsFrom quotes cs).modifyHead (lead ++ ·))) := by
  -- what was read of the run, the quotes before and whether one is open vary along the text
  induction cs generalizing quote quotes column lead word with
  | nil =>
    obtain rfl : quote = none := closed
    simp [wordsFrom, spoken_cons, hword]
  | cons c cs ih =>
    rw [openQuote] at closed
    rw [wordsFrom_cons]
    by_cases hbreak : isBreak (quotes, c) = true
    · obtain ⟨rfl, hblank⟩ := (isBreak_iff_quote h).1 hbreak
      rw [nextQuote_of_isBlank hblank] at closed
      rw [if_pos ⟨rfl, hblank⟩, runsFrom_break hbreak, List.modifyHead_cons, spoken_cons,
        List.append_nil, hword, List.reverse_reverse, ih h unquote_nil closed,
        modifyHead_nil_append]
      rfl
    · rw [if_neg (mt (isBreak_iff_quote h).2 hbreak), runsFrom_plain (by simpa using hbreak),
        modifyHead_append_cons]
      exact ih (nextQuote_eq_none_iff h column c) (unquote_concat hword c) closed

/-- **An open quote.** The quote that a text leaves open is its last one, and the last run reaches
from some place before it to the end of the text; or it was open before, and the text is one run. -/
theorem runsFrom_open (h : quote = none ↔ Even quotes) {q : Nat}
    (hopen : openQuote quote column cs = some q) :
    (∃ before lead after earlier, cs = before ++ lead ++ quoteMark :: after ∧ quoteMark ∉ after ∧
        q = column + (before ++ lead).length ∧
        runsFrom quotes cs = earlier ++ [lead ++ quoteMark :: after] ∧
        (earlier = [] → before = [])) ∨
      (quoteMark ∉ cs ∧ quote = some q ∧ runsFrom quotes cs = [cs]) := by
  induction cs generalizing quote quotes column with
  | nil => exact .inr ⟨List.not_mem_nil, hopen, runsFrom_nil quotes⟩
  | cons c cs ih =>
    rcases ih (nextQuote_eq_none_iff h column c) hopen with
      ⟨before, lead, after, earlier, rfl, hafter, rfl, hruns, hfirst⟩ | ⟨hcs, hnext, hruns⟩
    · left
      by_cases hbreak : isBreak (quotes, c) = true
      · have hcount : countQuote quotes c = quotes :=
          if_neg (ne_quoteMark_of_isBlank (isBreak_iff.1 hbreak).2)
        rw [hcount] at hruns
        exact ⟨c :: before, lead, after, [] :: earlier, rfl, hafter, by simp; omega,
          by rw [runsFrom_break hbreak, hruns]; rfl, by simp⟩
      · rw [runsFrom_plain (by simpa using hbreak), hruns]
        cases earlier with
        | nil =>
          obtain rfl := hfirst rfl
          exact ⟨[], c :: lead, after, [], rfl, hafter, by simp; omega, rfl, fun _ => rfl⟩
        | cons run earlier =>
          exact ⟨c :: before, lead, after, (c :: run) :: earlier, rfl, hafter, by simp; omega, rfl,
            by simp⟩
    · -- no quote follows, so the character is the last one or there is none
      by_cases hc : c = quoteMark
      · subst hc
        refine .inl ⟨[], [], cs, [], rfl, hcs, ?_, ?_, fun _ => rfl⟩
        · cases quote with
          | some q' => cases hnext
          | none => exact (Option.some.inj hnext).symm
        · rw [runsFrom_plain (not_isBreak_quoteMark quotes), hruns]
          rfl
      · have hquote : nextQuote quote column c = quote := if_neg hc
        rw [hquote] at hnext
        have hbreak : isBreak (quotes, c) ≠ true := by
          rw [ne_eq, isBreak_iff_quote h, hnext]
          simp
        refine .inr ⟨by simp [hcs, Ne.symm hc], hnext, ?_⟩
        rw [runsFrom_plain (by simpa using hbreak), hruns]
        rfl

/-! ### One word at a time -/

/-- What a character does to a scanner: a blank outside quotes ends a word that has begun, any other
but a quote belongs to one. -/
theorem nextFrom_cons (word : List Char) (quote : Option Nat) (column : Nat) (c : Char)
    (cs : List Char) :
    nextFrom word quote column (c :: cs) =
      if quote = none ∧ isBlank c = true then
        if word.isEmpty then nextFrom [] none (column + 1) cs
        else (.ok (some (String.ofList word.reverse)), ⟨c :: cs, column⟩)
      else
        nextFrom (if c = quoteMark then word else c :: word) (nextQuote quote column c)
          (column + 1) cs := by
  cases quote with
  | some q =>
    rw [if_neg (by simp), nextFrom, nextQuote]
    by_cases hc : c = quoteMark
    · rw [if_pos hc, if_pos hc, if_pos hc]
    · rw [if_neg hc, if_neg hc, if_neg hc]
  | none =>
    rw [nextFrom, nextQuote]
    by_cases hblank : isBlank c = true
    · rw [if_pos hblank, if_pos (c := none = none ∧ _) ⟨rfl, hblank⟩]
    · rw [if_neg hblank, if_neg (c := none = none ∧ _) (fun h => hblank h.2)]
      by_cases hc : c = quoteMark
      · rw [if_pos hc, if_pos hc, if_pos hc]
      · rw [if_neg hc, if_neg hc, if_neg hc]

/-- What a scanner answers when it has no word to say any more, where a quote is left open or
not. -/
def ending : Option Nat → Except ParseError (Option String)
  | none => .ok none
  | some q => .error (.unterminatedQuote q)

/-- The runs whose words can be said: all of them, but the last when it holds the open quote. -/
def sayable (opened : Option Nat) (runs : List (List Char)) : List (List Char) :=
  match opened with
  | none => runs
  | some _ => runs.dropLast

/-- Only of the last run it depends on the open quote whether it can be said. -/
theorem sayable_cons (opened : Option Nat) (run : List Char) {runs : List (List Char)}
    (h : runs ≠ []) : sayable opened (run :: runs) = run :: sayable opened runs := by
  cases opened with
  | none => rfl
  | some q => exact List.dropLast_cons_of_ne_nil h

/-- A scanner stands outside quotes, and `ws` are the words that it has still to say; `opened` is
the quote that the text leaves open. -/
def Scanner.Ahead (s : Scanner) (opened : Option Nat) (ws : List String) : Prop :=
  ∃ quotes, Even quotes ∧ openQuote none s.column s.rest = opened ∧
    spoken (sayable opened (runsFrom quotes s.rest)) = ws

/-- The scanner behind an answer, where `ws` were the words to say: the answer is the first of them,
or the ending and then the text is read. -/
def Says (opened : Option Nat) : List String → Except ParseError (Option String) × Scanner → Prop
  | [], said => said.1 = ending opened ∧ said.2.rest = []
  | w :: ws, said => said.1 = .ok (some w) ∧ said.2.Ahead opened ws

/-- **One word.** A scanner says the first of the words that are to say, or the ending. -/
theorem nextFrom_says (h : quote = none ↔ Even quotes) (hword : unquote lead = word.reverse)
    {opened : Option Nat} (hopen : openQuote quote column cs = opened) :
    Says opened (spoken (sayable opened ((runsFrom quotes cs).modifyHead (lead ++ ·))))
      (nextFrom word quote column cs) := by
  induction cs generalizing quote quotes column lead word with
  | nil =>
    obtain rfl : quote = opened := hopen
    cases quote with
    | some q => exact ⟨rfl, rfl⟩
    | none =>
      have hspoken : spoken (sayable none ((runsFrom quotes []).modifyHead (lead ++ ·)))
          = pushWord word [] := by
        simp [sayable, spoken_cons, hword]
      rw [hspoken, nextFrom]
      cases word with
      | nil => exact ⟨rfl, rfl⟩
      | cons c cs => exact ⟨rfl, 0, by simp, rfl, by simp [sayable, spoken, unquote]⟩
  | cons c cs ih =>
    rw [openQuote] at hopen
    rw [nextFrom_cons]
    by_cases hbreak : isBreak (quotes, c) = true
    · -- a break ends the first run, whose word is said if anything is left of it without quotes
      obtain ⟨rfl, hblank⟩ := (isBreak_iff_quote h).1 hbreak
      have hcolumn : openQuote none column (c :: cs) = opened := hopen
      rw [nextQuote_of_isBlank hblank] at hopen
      have hne := runsFrom_ne_nil quotes cs
      rw [if_pos ⟨rfl, hblank⟩, runsFrom_break hbreak, List.modifyHead_cons, List.append_nil,
        sayable_cons _ _ hne, spoken_cons, hword, List.reverse_reverse]
      cases word with
      | nil =>
        have hnext := ih h unquote_nil hopen
        rwa [modifyHead_nil_append] at hnext
      | cons c' word =>
        refine ⟨rfl, quotes, (isBreak_iff.1 hbreak).1, hcolumn, ?_⟩
        show spoken (sayable opened (runsFrom quotes (c :: cs))) = _
        rw [runsFrom_break hbreak, sayable_cons _ _ hne, spoken_cons]
        rfl
    · rw [if_neg (mt (isBreak_iff_quote h).2 hbreak), runsFrom_plain (by simpa using hbreak),
        modifyHead_append_cons]
      exact ih (nextQuote_eq_none_iff h column c) (unquote_concat hword c) hopen

namespace Scanner

variable {s : Scanner} {opened : Option Nat} {w : String} {ws : List String}

/-- A scanner outside quotes says the words that it has still to say, one with each answer. -/
theorem Ahead.says (h : s.Ahead opened ws) : Says opened ws s.next := by
  obtain ⟨quotes, even, hopen, rfl⟩ := h
  have hstart : (none : Option Nat) = none ↔ Even quotes := by simp [even]
  have hsays := nextFrom_says hstart unquote_nil hopen
  rwa [modifyHead_nil_append] at hsays

/-- A scanner that has read its text says no word any more. -/
theorem take_of_read (h : s.rest = []) (k : Nat) :
    s.take k = List.replicate k (.ok none) := by
  induction k generalizing s with
  | zero => rfl
  | succ k ih =>
    have hnext : s.next = (.ok none, ⟨[], s.column⟩) := by
      rw [Scanner.next, h]
      rfl
    rw [Scanner.take, hnext, ih rfl]
    rfl

/-- **All words, one at a time.** A scanner says the words that are ahead, then the ending, once,
and then that the text is read. -/
theorem Ahead.take (h : s.Ahead opened ws) (k : Nat) :
    s.take (ws.length + (k + 1))
      = ws.map (fun w => .ok (some w)) ++ ending opened :: List.replicate k (.ok none) := by
  induction ws generalizing s with
  | nil =>
    obtain ⟨hanswer, hrest⟩ := h.says
    rw [List.length_nil, Nat.zero_add, Scanner.take, hanswer, take_of_read hrest]
    rfl
  | cons w ws ih =>
    obtain ⟨hanswer, hahead⟩ := h.says
    have hlength : (w :: ws).length + (k + 1) = ws.length + (k + 1) + 1 := by
      rw [List.length_cons]
      omega
    rw [hlength, Scanner.take, hanswer, ih hahead]
    rfl

end Scanner

/-! ### Texts -/

/-- The words to say of a text that leaves no quote open are those of all its stretches. -/
theorem ofText_ahead_closed {text : List Char} (closed : openQuote none 0 text = none) :
    (Scanner.ofText text).Ahead none (spoken (stretchesOf text)) :=
  ⟨0, Even.zero, closed, (spoken_filter _).symm⟩

/-- The quote that a text leaves open is its last one.  The stretch that holds it reaches to the end
of the text, and the words to say are those of the stretches before. -/
theorem ofText_ahead_open {text : List Char} {q : Nat} (hopen : openQuote none 0 text = some q) :
    ∃ before lead after earlier, text = before ++ lead ++ quoteMark :: after ∧ quoteMark ∉ after ∧
      q = (before ++ lead).length ∧ stretchesOf text = earlier ++ [lead ++ quoteMark :: after] ∧
      (Scanner.ofText text).Ahead (some q) (spoken earlier) := by
  have hstart : (none : Option Nat) = none ↔ Even 0 := by simp
  rcases runsFrom_open hstart hopen with
    ⟨before, lead, after, earlier, htext, hafter, hq, hruns, -⟩ | ⟨-, hnone, -⟩
  · refine ⟨before, lead, after, earlier.filter (!·.isEmpty), htext, hafter,
      by rw [hq, Nat.zero_add], ?_, 0, Even.zero, hopen, ?_⟩
    · simp [stretchesOf, hruns, List.filter_append]
    · show spoken (runsFrom 0 text).dropLast = _
      rw [hruns, List.dropLast_concat, spoken_filter]
  · cases hnone

/-- **Words.** The words of a text whose quotes are paired are those of its stretches, in order, and
a scanner says them one by one and then, whenever it is asked, that the text is read.  A text whose
quotes are not paired has no words but an error, which tells how many characters stand before its
last quote.  A scanner then says the words of the stretches before the one that holds this quote,
the error once, and then that the text is read. -/
theorem words_spoken (text : List Char) :
    (Even (text.count quoteMark) →
      words text = .ok (spoken (stretchesOf text)) ∧
        ∀ k, (Scanner.ofText text).take ((spoken (stretchesOf text)).length + (k + 1))
          = (spoken (stretchesOf text)).map (fun w => .ok (some w)) ++
              List.replicate (k + 1) (.ok none)) ∧
      (Odd (text.count quoteMark) →
        ∃ before lead after earlier, text = before ++ lead ++ quoteMark :: after ∧
          quoteMark ∉ after ∧ stretchesOf text = earlier ++ [lead ++ quoteMark :: after] ∧
          words text = .error (.unterminatedQuote (before ++ lead).length) ∧
          ∀ k, (Scanner.ofText text).take ((spoken earlier).length + (k + 1))
            = (spoken earlier).map (fun w => .ok (some w)) ++
                .error (.unterminatedQuote (before ++ lead).length) ::
                  List.replicate k (.ok none)) := by
  have hstart : (none : Option Nat) = none ↔ Even 0 := by simp
  have hclosed := openQuote_eq_none_iff hstart 0 text
  rw [Nat.zero_add] at hclosed
  constructor
  · intro even
    have closed : openQuote none 0 text = none := hclosed.2 even
    have hwords := wordsFrom_eq_spoken hstart unquote_nil closed
    rw [modifyHead_nil_append, ← spoken_filter] at hwords
    exact ⟨hwords, (ofText_ahead_closed closed).take⟩
  · intro odd
    obtain ⟨q, hopen⟩ :=
      Option.ne_none_iff_exists'.1 (mt hclosed.1 (Nat.not_even_iff_odd.2 odd))
    obtain ⟨before, lead, after, earlier, htext, hafter, rfl, hstretches, ahead⟩ :=
      ofText_ahead_open hopen
    exact ⟨before, lead, after, earlier, htext, hafter, hstretches, words_error hopen, ahead.take⟩

/-- The last of these stretches holds a quote that is not closed. -/
example : stretchesOf "a\"b c\"d \"\" | \"x y".toList
      = ["a\"b c\"d".toList, "\"\"".toList, "|".toList, "\"x y".toList] ∧
    spoken ["a\"b c\"d".toList, "\"\"".toList, "|".toList] = ["ab cd", "|"] := by
  decide +kernel

end LineShell
