import LineShell.Command.InPlace
import LineShell.Proofs.Reading.Defect
import LineShell.Proofs.Reading.Vacant
import LineShell.Proofs.Rendering.Words
import Mathlib.Data.List.TakeDrop
import Mathlib.Data.List.TakeWhile

namespace LineShell

/-!
# Reading on from a place

Where a reader stands in a line, the line is what reading on from there makes of it, behind the
pipes before.  One more character is read, a run between quotes is passed over, or an operator ends
the text of a part.

* `classify_cases` — what a character can mean.
* `Part.program_finish_pad`, `Part.target_finish_tail` — blanks around a text do not matter.
* `Reads` — what the line is, told from a place in it.
* `Reads.pass`, `Reads.run`, `Reads.redirect`, `Reads.pipe`, `Reads.ends` — and from a later place.
-/

/-- What a character can mean: a quote, an operator, or a character of a text. -/
theorem classify_cases (c : Char) :
    c = quoteMark ∨ (∃ op : Operator, c = op.symbol) ∨
      (operator? c = none ∧ c ≠ quoteMark ∧ (classify c = .blank ∨ classify c = .literal)) := by
  by_cases hc : c = quoteMark
  · exact .inl hc
  cases hop : operator? c with
  | none => exact .inr (.inr ⟨rfl, hc, classify_of_plain hop hc⟩)
  | some op => exact .inr (.inl ⟨op, eq_symbol_of_operator? hop⟩)

theorem classify_pipe : classify (Operator.symbol .pipe) = .pipe := rfl

/-- The symbol of a redirect is read as a redirect in its direction. -/
theorem classify_redirect (direction : Direction) :
    classify (Operator.symbol (.redirect direction)) = .redirect direction := by
  cases direction <;> rfl

theorem classify_quoteMark : classify quoteMark = .quote := rfl

/-! ### Blanks around a text -/

section Blanks

variable {lead tail : List Char}

/-- A text that leaves no quote open has the same words wherever it stands and whatever blanks
follow. -/
theorem wordsFrom_closed (htail : ∀ c ∈ tail, isBlank c = true) (quotes : Nat)
    {quote quote' : Option Nat} (h : quote = none ↔ Even quotes) (h' : quote' = none ↔ Even quotes)
    {cs : List Char} (closed : Even (quotes + cs.count quoteMark)) (word : List Char)
    (column column' : Nat) :
    wordsFrom word quote column (cs ++ tail) = wordsFrom word quote' column' cs := by
  -- the columns may differ, but the same quotes are open in both texts
  induction cs generalizing quotes quote quote' word column column' with
  | nil =>
    obtain rfl : quote = none := h.2 (by simpa using closed)
    obtain rfl : quote' = none := h'.2 (by simpa using closed)
    exact wordsFrom_tail htail word column
  | cons c cs ih =>
    rw [← countQuote_add] at closed
    have open_iff : (quote = none ∧ isBlank c = true) ↔ (quote' = none ∧ isBlank c = true) := by
      rw [h, h']
    rw [List.cons_append, wordsFrom_cons, wordsFrom_cons]
    by_cases ends : quote' = none ∧ isBlank c = true
    · -- a blank outside quotes leaves the number of quotes as it is
      have hcount : countQuote quotes c = quotes := if_neg (ne_quoteMark_of_isBlank ends.2)
      rw [hcount] at closed
      rw [if_pos (open_iff.2 ends), if_pos ends]
      have hnone : (none : Option Nat) = none ↔ Even quotes := by rw [← h', ends.1]
      rw [ih quotes hnone hnone closed]
    · rw [if_neg (mt open_iff.1 ends), if_neg ends]
      exact ih _ (nextQuote_eq_none_iff h column c) (nextQuote_eq_none_iff h' column' c) closed ..

/-- The words of a text are those of the text without the blanks around it. -/
theorem words_pad (hlead : ∀ c ∈ lead, isBlank c = true) (htail : ∀ c ∈ tail, isBlank c = true)
    {text : List Char} (closed : Even (text.count quoteMark)) :
    words (lead ++ (text ++ tail)) = words text := by
  obtain ⟨k, hk⟩ := wordsFrom_lead hlead 0 (text ++ tail)
  rw [words, hk]
  exact wordsFrom_closed htail 0 (by simp) (by simp) (by simpa using closed) [] k 0

/-- Blanks around the text of a program do not matter. -/
theorem Part.program_finish_pad (hlead : ∀ c ∈ lead, isBlank c = true)
    (htail : ∀ c ∈ tail, isBlank c = true) {text : List Char}
    (closed : Even (text.count quoteMark)) (op : Option Operator) :
    Part.program.finish (lead ++ (text ++ tail)) op = Part.program.finish text op := by
  simp only [Part.finish, words_pad hlead htail closed]

/-- What is stripped anyway may stand at the end of a text. -/
theorem stripEnds_append {p : Char → Bool} (htail : ∀ c ∈ tail, p c = true) (text : List Char) :
    stripEnds p (text ++ tail) = stripEnds p text := by
  have hback : tail.reverse.dropWhile p = [] :=
    List.dropWhile_eq_nil_iff.2 fun c hc => htail c (List.mem_reverse.1 hc)
  have hfront : tail.dropWhile p = [] := List.dropWhile_eq_nil_iff.2 htail
  rw [stripEnds, stripEnds, List.dropWhile_append]
  -- the text may be made of blanks only, and then all of both texts goes at the front
  by_cases blank : (text.dropWhile p).isEmpty = true
  · rw [if_pos blank, hfront, List.isEmpty_iff.1 blank]
  · rw [if_neg blank, List.reverse_append, List.dropWhile_append, hback]
    simp

/-- Blanks behind the text that names a file do not matter, nor does the operator behind them. -/
theorem Part.target_finish_tail (htail : ∀ c ∈ tail, isBlank c = true) (inner : Command)
    (direction : Direction) (text : List Char) (op op' : Option Operator) :
    (Part.target inner direction).finish (text ++ tail) op
      = (Part.target inner direction).finish text op' := by
  simp only [Part.finish, redirectTarget_eq, stripEnds_append htail]
  rfl

/-- A text is what is left of it when it is trimmed, between blanks. -/
theorem exists_trim (p : Char → Bool) (raw : List Char) :
    ∃ lead tail, raw = lead ++ (stripEnds p raw ++ tail) ∧
      raw.dropWhile p = stripEnds p raw ++ tail ∧ (∀ c ∈ lead, p c = true) ∧
      ∀ c ∈ tail, p c = true := by
  have hfront : raw.takeWhile p ++ raw.dropWhile p = raw := List.takeWhile_append_dropWhile
  have hback : (raw.dropWhile p).reverse.takeWhile p ++ (raw.dropWhile p).reverse.dropWhile p
      = (raw.dropWhile p).reverse := List.takeWhile_append_dropWhile
  have hdrop : raw.dropWhile p
      = stripEnds p raw ++ ((raw.dropWhile p).reverse.takeWhile p).reverse := by
    rw [stripEnds, ← List.reverse_append, hback, List.reverse_reverse]
  refine ⟨raw.takeWhile p, _, by rw [← hdrop, hfront], hdrop,
    fun c hc => List.mem_takeWhile_imp hc,
    fun c hc => List.mem_takeWhile_imp (List.mem_reverse.1 hc)⟩

end Blanks

/-! ### Reading on -/

section Reading

variable (part : Part) (text : List Char)

/-- Blanks belong to the text. -/
theorem readFrom_blanks {blanks : List Char} (h : ∀ c ∈ blanks, isBlank c = true) (column : Nat)
    (rest : List Char) :
    Command.readFrom part text.reverse none column (blanks ++ rest)
      = Command.readFrom part (text ++ blanks).reverse none (column + blanks.length) rest := by
  induction blanks generalizing text column with
  | nil => simp
  | cons c blanks ih =>
    obtain ⟨hc, hblanks⟩ := List.forall_mem_cons.1 h
    have := ih (text ++ [c]) hblanks (column + 1)
    rw [List.cons_append, readFrom_plain (.inr (operator?_of_isBlank hc)), nextQuote_of_isBlank hc]
    simp only [List.reverse_append, List.reverse_singleton, List.singleton_append,
      List.append_assoc, List.length_cons] at this ⊢
    rw [this]
    congr 1
    omega

/-- Without a quote a run goes on. -/
theorem readFrom_run {run : List Char} (h : quoteMark ∉ run) (q column : Nat)
    (rest : List Char) :
    Command.readFrom part text (some q) column (run ++ rest)
      = Command.readFrom part (run.reverse ++ text) (some q) (column + run.length) rest := by
  induction run generalizing text column with
  | nil => rfl
  | cons c run ih =>
    obtain ⟨hc, hrun⟩ := not_or.1 (mt List.mem_cons.2 h)
    rw [List.cons_append, readFrom_plain (.inl (by simp)), nextQuote, if_neg (Ne.symm hc),
      ih _ hrun]
    simp only [List.reverse_cons, List.append_assoc, List.singleton_append, List.length_cons]
    congr 1
    omega

end Reading

/-- An error in the rest of a line is the error of the line, whatever was read before. -/
theorem joinLefts_error (lefts : List Command) (e : ParseError) :
    joinLefts lefts (.error e) = .error e := by
  induction lefts with
  | nil => rfl
  | cons left lefts ih => exact ih

/-- What the line is, told from a place in it: `consumed` stands before, of which `text` is for the
part that is being read, and the commands in `lefts` are joined to what reading on says. -/
def Reads (line : List Char) (lefts : List Command) (part : Part) (text consumed rest : List Char) :
    Prop :=
  Command.ofChars line
    = joinLefts lefts (Command.readFrom part text.reverse none consumed.length rest)

namespace Reads

variable {line text consumed rest : List Char} {lefts : List Command} {part : Part}

/-- Before anything is read, the line is what reading it gives. -/
theorem start (line : List Char) : Reads line [] .program [] [] line := rfl

/-- A character that is no operator and no quote belongs to the text. -/
theorem pass {c : Char} (h : Reads line lefts part text consumed (c :: rest))
    (hop : operator? c = none) (hc : c ≠ quoteMark) :
    Reads line lefts part (text ++ [c]) (consumed ++ [c]) rest := by
  rw [Reads, readFrom_plain (.inr hop), nextQuote, if_neg hc] at h
  rw [Reads, h]
  simp

/-- So does a run between quotes. -/
theorem run {run : List Char} (closed : quoteMark ∉ run)
    (h : Reads line lefts part text consumed (quoteMark :: (run ++ quoteMark :: rest))) :
    Reads line lefts part (text ++ quoteMark :: (run ++ [quoteMark]))
      (consumed ++ quoteMark :: (run ++ [quoteMark])) rest := by
  rw [Reads, readFrom_plain (.inr rfl), nextQuote, if_pos rfl] at h
  simp only [readFrom_run _ _ closed] at h
  rw [readFrom_plain (.inl (by simp)), nextQuote, if_pos rfl] at h
  have hlength : (consumed ++ quoteMark :: (run ++ [quoteMark])).length
      = consumed.length + 1 + run.length + 1 := by
    simp
    omega
  rw [Reads, h, hlength]
  simp

/-- Blanks belong to the text. -/
theorem blanks {blanks : List Char} (hblanks : ∀ c ∈ blanks, isBlank c = true)
    (h : Reads line lefts part text consumed (blanks ++ rest)) :
    Reads line lefts part (text ++ blanks) (consumed ++ blanks) rest := by
  rw [Reads, readFrom_blanks part text hblanks] at h
  rw [Reads, h, List.length_append]

/-- A quote that is not closed is an error at its column. -/
theorem unclosed (hrest : quoteMark ∉ rest)
    (h : Reads line lefts part text consumed (quoteMark :: rest)) :
    Command.ofChars line = .error (.unterminatedQuote consumed.length) := by
  rw [Reads, readFrom_plain (.inr rfl), nextQuote, if_pos rfl] at h
  have hend := readFrom_run part (quoteMark :: text.reverse) hrest consumed.length
    (consumed.length + 1) []
  rw [List.append_nil] at hend
  simp only [hend] at h
  rw [h]
  exact joinLefts_error lefts _

/-- Behind a redirect stands the name of its file. -/
theorem redirect {direction : Direction} {inner : Command}
    (h : Reads line lefts part text consumed (direction.symbol :: rest))
    (built : part.finish text (some (.redirect direction)) = .ok inner) :
    Reads line lefts (.target inner direction) [] (consumed ++ [direction.symbol]) rest := by
  rw [Reads, readFrom_redirect, List.reverse_reverse, built] at h
  rw [Reads, h]
  simp [Except.bind]

/-- Behind a pipe stands another segment. -/
theorem pipe {left : Command} (h : Reads line lefts part text consumed ('|' :: rest))
    (built : part.finish text (some .pipe) = .ok left) :
    Reads line (left :: lefts) .program [] (consumed ++ ['|']) rest := by
  rw [Reads, readFrom_pipe, List.reverse_reverse, built] at h
  rw [Reads, h]
  simp only [List.length_append]
  rfl

/-- An operator whose text is no good is an error. -/
theorem operator_error {op : Operator} {e : ParseError}
    (h : Reads line lefts part text consumed (op.symbol :: rest))
    (bad : part.finish text (some op) = .error e) : Command.ofChars line = .error e := by
  cases op with
  | pipe =>
    rw [Reads, Operator.symbol, readFrom_pipe, List.reverse_reverse, bad] at h
    exact h.trans (joinLefts_error lefts e)
  | redirect direction =>
    rw [Reads, Operator.symbol, readFrom_redirect, List.reverse_reverse, bad] at h
    exact h.trans (joinLefts_error lefts e)

/-- At the end of the line, blanks apart, the part is finished. -/
theorem ends (hrest : ∀ c ∈ rest, isBlank c = true) (h : Reads line lefts part text consumed rest) :
    Command.ofChars line = joinLefts lefts (part.finish (text ++ rest) none) := by
  have hend := readFrom_blanks part text hrest consumed.length []
  rw [List.append_nil] at hend
  rw [Reads, hend] at h
  rw [h, Command.readFrom, List.reverse_reverse]

end Reads

end LineShell
