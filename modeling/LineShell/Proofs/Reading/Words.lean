import LineShell.Proofs.Reading.Cut

namespace LineShell

/-!
# Which texts have words

* `words_error`, `exists_words` — a text has words when it leaves no quote open.
* `words_sayable`, `unquote_sayable` — words and paths are without quotes.
-/

/-- No blank is a quote. -/
theorem ne_quoteMark_of_isBlank {c : Char} (h : isBlank c = true) : c ≠ quoteMark := by
  rintro rfl
  exact absurd h (by decide)

/-- What a character does: a blank outside quotes ends a word, any other but a quote belongs to
one. -/
theorem wordsFrom_cons (word : List Char) (quote : Option Nat) (column : Nat) (c : Char)
    (cs : List Char) :
    wordsFrom word quote column (c :: cs) =
      if quote = none ∧ isBlank c = true then
        (wordsFrom [] none (column + 1) cs).map (pushWord word)
      else
        wordsFrom (if c = quoteMark then word else c :: word) (nextQuote quote column c)
          (column + 1) cs := by
  cases quote with
  | some q =>
    rw [if_neg (by simp), wordsFrom, nextQuote]
    by_cases hc : c = quoteMark
    · rw [if_pos hc, if_pos hc, if_pos hc]
    · rw [if_neg hc, if_neg hc, if_neg hc]
  | none =>
    rw [wordsFrom, nextQuote]
    by_cases hblank : isBlank c = true
    · rw [if_pos hblank, if_pos ⟨rfl, hblank⟩]
    · rw [if_neg hblank, if_neg (c := none = none ∧ _) (fun h => hblank h.2)]
      by_cases hc : c = quoteMark
      · rw [if_pos hc, if_pos hc, if_pos hc]
      · rw [if_neg hc, if_neg hc, if_neg hc]

/-- A blank outside quotes opens no quote. -/
theorem nextQuote_of_isBlank {c : Char} (h : isBlank c = true) (quote : Option Nat) (column : Nat) :
    nextQuote quote column c = quote :=
  if_neg (ne_quoteMark_of_isBlank h)

/-! ### Quotes -/

/-- A text that leaves a quote open has no words, and the quote is told. -/
theorem wordsFrom_error {word : List Char} {quote : Option Nat} {column : Nat} {cs : List Char}
    {q : Nat} (h : openQuote quote column cs = some q) :
    wordsFrom word quote column cs = .error (.unterminatedQuote q) := by
  induction cs generalizing word quote column with
  | nil =>
    obtain rfl : quote = some q := h
    rfl
  | cons c cs ih =>
    rw [openQuote] at h
    rw [wordsFrom_cons]
    split
    case isTrue hblank =>
      obtain ⟨rfl, hblank⟩ := hblank
      rw [nextQuote_of_isBlank hblank] at h
      rw [ih h]
      rfl
    case isFalse => exact ih h

/-- A text that leaves no quote open has words. -/
theorem exists_wordsFrom {word : List Char} {quote : Option Nat} {column : Nat} {cs : List Char}
    (h : openQuote quote column cs = none) : ∃ argv, wordsFrom word quote column cs = .ok argv := by
  induction cs generalizing word quote column with
  | nil =>
    obtain rfl : quote = none := h
    exact ⟨_, rfl⟩
  | cons c cs ih =>
    rw [openQuote] at h
    rw [wordsFrom_cons]
    split
    case isTrue hblank =>
      obtain ⟨rfl, hblank⟩ := hblank
      rw [nextQuote_of_isBlank hblank] at h
      obtain ⟨argv, hargv⟩ : ∃ argv, wordsFrom [] none (column + 1) cs = .ok argv := ih h
      exact ⟨pushWord word argv, by rw [hargv]; rfl⟩
    case isFalse => exact ih h

/-- A text with an open quote has no words, and the column of that quote is told. -/
theorem words_error {cs : List Char} {q : Nat} (h : openQuote none 0 cs = some q) :
    words cs = .error (.unterminatedQuote q) :=
  wordsFrom_error h

/-- A text without an open quote has words. -/
theorem exists_words {cs : List Char} (h : openQuote none 0 cs = none) :
    ∃ argv, words cs = .ok argv :=
  exists_wordsFrom h

/-! ### Words and paths can be said -/

/-- A word that is pushed holds what was read. -/
theorem pushWord_sayable {word : List Char} {argv : List String} (hword : quoteMark ∉ word)
    (hargv : ∀ w ∈ argv, Command.Sayable w) : ∀ w ∈ pushWord word argv, Command.Sayable w := by
  unfold pushWord
  split
  case isTrue => exact hargv
  case isFalse hne =>
    intro w hw
    rcases List.mem_cons.1 hw with rfl | hw
    · refine ⟨by simpa using hne, ?_⟩
      rw [String.toList_ofList, List.mem_reverse]
      exact hword
    · exact hargv w hw

/-- Words that are read hold no quote, if the one that was begun holds none. -/
theorem wordsFrom_sayable {word : List Char} {quote : Option Nat} {column : Nat} {cs : List Char}
    {argv : List String} (h : wordsFrom word quote column cs = .ok argv)
    (hword : quoteMark ∉ word) : ∀ w ∈ argv, Command.Sayable w := by
  induction cs generalizing word quote column argv with
  | nil =>
    cases quote with
    | some q => cases h
    | none =>
      cases h
      exact pushWord_sayable hword (by simp)
  | cons c cs ih =>
    rw [wordsFrom_cons] at h
    split at h
    case isTrue hblank =>
      cases hrest : wordsFrom [] none (column + 1) cs with
      | error e => rw [hrest] at h; cases h
      | ok rest =>
        rw [hrest] at h
        cases h
        exact pushWord_sayable hword (ih hrest (by simp))
    case isFalse =>
      -- a quote is dropped, any other character is kept
      refine ih h ?_
      by_cases hc : c = quoteMark
      · rwa [if_pos hc]
      · rw [if_neg hc]
        simp [hword, Ne.symm hc]

/-- Every word of a text holds a character and no quote. -/
theorem words_sayable {cs : List Char} {argv : List String} (h : words cs = .ok argv) :
    ∀ w ∈ argv, Command.Sayable w :=
  wordsFrom_sayable h (by simp)

/-- So does every path that is not empty. -/
theorem unquote_sayable {cs : List Char} (h : unquote cs ≠ []) :
    Command.Sayable (String.ofList (unquote cs)) := by
  refine ⟨by simpa using h, ?_⟩
  simp [unquote, quoteMark]

end LineShell
