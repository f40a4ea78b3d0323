import LineShell.Command.Reader
import Mathlib.Algebra.Group.Nat.Even

namespace LineShell

/-!
# Lines cut at their operators

A line is read in one pass.  Here the pass is taken apart: an operator is structural when an even
number of quotes stand before it, the line is cut at its structural operators first, and the texts
between them are looked at then.

* `openQuote` — the quote of a text that is not closed.
* `cutFrom` — a text cut at its structural operators.
* `readPieces` — a command read from the pieces.
* `readFrom_eq_readPieces` — reading in one pass is cutting and reading the pieces.
-/

/-! ### Quotes -/

/-- How many quotes were read, a character later. -/
def countQuote (quotes : Nat) (c : Char) : Nat :=
  if c = quoteMark then quotes + 1 else quotes

/-- The column of the quote that is not closed, a character later. -/
def nextQuote (quote : Option Nat) (column : Nat) (c : Char) : Option Nat :=
  if c = quoteMark then
    match quote with
    | some _ => none
    | none => some column
  else quote

/-- The column of the quote that is not closed at the end of a text. -/
def openQuote (quote : Option Nat) (column : Nat) : List Char → Option Nat
  | [] => quote
  | c :: cs => openQuote (nextQuote quote column c) (column + 1) cs

/-- A quote is open exactly when an odd number of quotes was read. -/
theorem nextQuote_eq_none_iff {quote : Option Nat} {quotes : Nat} (h : quote = none ↔ Even quotes)
    (column : Nat) (c : Char) : nextQuote quote column c = none ↔ Even (countQuote quotes c) := by
  unfold nextQuote countQuote
  by_cases hc : c = quoteMark
  · rw [if_pos hc, if_pos hc, Nat.even_add_one, ← h]
    cases quote <;> simp
  · rw [if_neg hc, if_neg hc, h]

/-- A character may be counted with those before it or with those behind it. -/
theorem countQuote_add (quotes : Nat) (c : Char) (cs : List Char) :
    countQuote quotes c + cs.count quoteMark = quotes + (c :: cs).count quoteMark := by
  unfold countQuote
  by_cases hc : c = quoteMark
  · rw [if_pos hc, hc, List.count_cons_self]
    omega
  · rw [if_neg hc, List.count_cons_of_ne hc]

/-- A text leaves no quote open exactly when it makes the number of quotes even. -/
theorem openQuote_eq_none_iff {quote : Option Nat} {quotes : Nat} (h : quote = none ↔ Even quotes)
    (column : Nat) (cs : List Char) :
    openQuote quote column cs = none ↔ Even (quotes + cs.count quoteMark) := by
  induction cs generalizing quote quotes column with
  | nil => exact h
  | cons c cs ih =>
    rw [openQuote, ih (nextQuote_eq_none_iff h column c), countQuote_add]

/-! ### Cutting -/

/-- The operator that a character stands for outside quotes. -/
def operator? (c : Char) : Option Operator :=
  if c = '|' then some .pipe
  else if c = '<' then some (.redirect .input)
  else if c = '>' then some (.redirect .output)
  else none

/-- The symbol of an operator is read as that operator. -/
theorem operator?_symbol (op : Operator) : operator? op.symbol = some op := by
  rcases op with _ | _ | _ <;> rfl

/-- No operator is a quote. -/
theorem Operator.symbol_ne_quoteMark (op : Operator) : op.symbol ≠ quoteMark := by
  rcases op with _ | _ | _ <;> decide

/-- A character that stands for an operator is its symbol. -/
theorem eq_symbol_of_operator? {c : Char} {op : Operator} (h : operator? c = some op) :
    c = op.symbol := by
  unfold operator? at h
  split at h
  case isTrue hc => cases h; exact hc
  split at h
  case isTrue hc => cases h; exact hc
  split at h
  case isTrue hc => cases h; exact hc
  case isFalse => cases h

/-- A character that is no operator and no quote is a blank or stands for itself. -/
theorem classify_of_plain {c : Char} (hop : operator? c = none) (hc : c ≠ quoteMark) :
    classify c = .blank ∨ classify c = .literal := by
  unfold operator? at hop
  unfold classify
  by_cases hblank : isBlank c = true
  · exact .inl (if_pos hblank)
  · right
    grind

/-- The text before the first structural operator, and each structural operator with the text up to
the next one or to the end; `quotes` quotes stand before.  An operator is structural when an even
number of quotes stand before it. -/
def cutFrom (quotes : Nat) : List Char → List Char × List (Operator × List Char)
  | [] => ([], [])
  | c :: cs =>
    let behind := cutFrom (countQuote quotes c) cs
    match operator? c with
    | some op => if Even quotes then ([], (op, behind.1) :: behind.2) else (c :: behind.1, behind.2)
    | none => (c :: behind.1, behind.2)

/-- A structural operator ends the text before it. -/
theorem cutFrom_structural {quotes : Nat} (h : Even quotes) (op : Operator) (cs : List Char) :
    cutFrom quotes (op.symbol :: cs)
      = ([], (op, (cutFrom quotes cs).1) :: (cutFrom quotes cs).2) := by
  have hcount : countQuote quotes op.symbol = quotes := if_neg op.symbol_ne_quoteMark
  rw [cutFrom, operator?_symbol, hcount]
  exact if_pos h

/-- Any other character belongs to the text. -/
theorem cutFrom_plain {quotes : Nat} {c : Char} (h : ¬ Even quotes ∨ operator? c = none)
    (cs : List Char) :
    cutFrom quotes (c :: cs)
      = (c :: (cutFrom (countQuote quotes c) cs).1, (cutFrom (countQuote quotes c) cs).2) := by
  rw [cutFrom]
  cases hop : operator? c with
  | none => rfl
  | some op =>
    rcases h with hodd | hnone
    · exact if_neg hodd
    · rw [hop] at hnone
      cases hnone

/-- The pieces make up the text that was cut. -/
theorem join_cutFrom (quotes : Nat) (cs : List Char) :
    (cutFrom quotes cs).1 ++ (cutFrom quotes cs).2.flatMap (fun p => p.1.symbol :: p.2) = cs := by
  induction cs generalizing quotes with
  | nil => rfl
  | cons c cs ih =>
    by_cases hplain : ¬ Even quotes ∨ operator? c = none
    · rw [cutFrom_plain hplain]
      exact congrArg (c :: ·) (ih _)
    · obtain ⟨heven, hop⟩ := not_or.1 hplain
      obtain ⟨op, hop⟩ := Option.ne_none_iff_exists'.1 hop
      obtain rfl := eq_symbol_of_operator? hop
      rw [cutFrom_structural (not_not.1 heven)]
      exact congrArg (op.symbol :: ·) (ih _)

/-! ### Reading the pieces -/

/-- Reads a command from the text of a part and the pieces behind it; `quote` is the quote that the
last piece leaves open. -/
def readPieces (quote : Option Nat) (part : Part) (text : List Char) :
    List (Operator × List Char) → Except ParseError Command
  | [] =>
    match quote with
    | some q => .error (.unterminatedQuote q)
    | none => part.finish text none
  | (.redirect direction, next) :: pieces => do
    let built ← part.finish text (some (.redirect direction))
    readPieces quote (.target built direction) next pieces
  | (.pipe, next) :: pieces => do
    let left ← part.finish text (some .pipe)
    let right ← readPieces quote .program next pieces
    pipeTo left right

/-! ### One pass -/

/-- A redirect outside quotes ends the part before it. -/
theorem readFrom_redirect (part : Part) (text : List Char) (column : Nat) (direction : Direction)
    (cs : List Char) :
    Command.readFrom part text none column (direction.symbol :: cs)
      = (part.finish text.reverse (some (.redirect direction))).bind fun built =>
          Command.readFrom (.target built direction) [] none (column + 1) cs := by
  cases direction <;> rfl

/-- A pipe outside quotes ends the part before it. -/
theorem readFrom_pipe (part : Part) (text : List Char) (column : Nat) (cs : List Char) :
    Command.readFrom part text none column ('|' :: cs)
      = (part.finish text.reverse (some .pipe)).bind fun left =>
          (Command.readFrom .program [] none (column + 1) cs).bind (pipeTo left) := rfl

/-- Any other character belongs to the part. -/
theorem readFrom_plain {quote : Option Nat} {c : Char} (h : quote ≠ none ∨ operator? c = none)
    (part : Part) (text : List Char) (column : Nat) (cs : List Char) :
    Command.readFrom part text quote column (c :: cs)
      = Command.readFrom part (c :: text) (nextQuote quote column c) (column + 1) cs := by
  cases quote with
  | some q => rfl
  | none =>
    have hop : operator? c = none := h.resolve_left (by simp)
    by_cases hc : c = quoteMark
    · subst hc; rfl
    · rw [nextQuote, if_neg hc]
      rcases classify_of_plain hop hc with hclass | hclass <;>
        simp only [Command.readFrom, hclass]

/-- **One pass.** Reading a text in one pass is cutting it at its structural operators and reading
the pieces. -/
theorem readFrom_eq_readPieces (part : Part) (text : List Char) {quote : Option Nat} {quotes : Nat}
    (h : quote = none ↔ Even quotes) (column : Nat) (cs : List Char) :
    Command.readFrom part text quote column cs
      = readPieces (openQuote quote column cs) part (text.reverse ++ (cutFrom quotes cs).1)
          (cutFrom quotes cs).2 := by
  -- The characters of the part, read in reverse, and the quotes before vary along the text; a quote
  -- is open exactly when their number is odd.
  induction cs generalizing part text quote quotes column with
  | nil =>
    rw [cutFrom, List.append_nil]
    cases quote <;> rfl
  | cons c cs ih =>
    by_cases hplain : quote ≠ none ∨ operator? c = none
    · rw [readFrom_plain hplain, ih _ _ (nextQuote_eq_none_iff h column c),
        cutFrom_plain (hplain.imp_left (mt h.2))]
      simp [openQuote]
    · -- the character is an operator outside quotes
      obtain ⟨hquote, hop⟩ := not_or.1 hplain
      obtain rfl : quote = none := not_not.1 hquote
      obtain ⟨op, hop⟩ := Option.ne_none_iff_exists'.1 hop
      obtain rfl := eq_symbol_of_operator? hop
      have hnext : nextQuote none column op.symbol = none := if_neg op.symbol_ne_quoteMark
      rw [cutFrom_structural (h.1 rfl), openQuote, hnext, List.append_nil]
      cases op with
      | pipe =>
        rw [Operator.symbol, readFrom_pipe, ih .program [] h]
        rfl
      | redirect direction =>
        rw [Operator.symbol, readFrom_redirect]
        simp only [ih (.target _ direction) [] h]
        rfl

end LineShell
