import LineShell.Proofs.Reading

namespace LineShell

/-!
# Lines with nothing to do

A line can be read and still hold no command.  Such lines are told by their characters.

* `Vacant` — blanks and pairs of quotes with nothing between them.
* `words_eq_nil_iff` — the texts without words.
* `ofLine_eq_nil_iff` — the lines that describe the empty command.
-/

/-- A blank is no operator. -/
theorem operator?_of_isBlank {c : Char} (h : isBlank c = true) : operator? c = none := by
  cases hop : operator? c with
  | none => rfl
  | some op =>
    rw [eq_symbol_of_operator? hop] at h
    rcases op with _ | _ | _ <;> cases h

/-- The text is made of blanks and of quotes that are closed at once. -/
inductive Vacant : List Char → Prop
  | nil : Vacant []
  | blank {c cs} (h : isBlank c = true) (rest : Vacant cs) : Vacant (c :: cs)
  | quotes {cs} (rest : Vacant cs) : Vacant (quoteMark :: quoteMark :: cs)

namespace Vacant

variable {c : Char} {cs : List Char}

/-- A blank at the front of a text does not matter. -/
theorem cons_blank_iff (h : isBlank c = true) : Vacant (c :: cs) ↔ Vacant cs := by
  refine ⟨?_, .blank h⟩
  rintro (_ | ⟨-, rest⟩ | _)
  · exact rest
  · exact absurd h (by decide)

/-- A quote at the front of a vacant text is closed at once. -/
theorem cons_quote_iff :
    Vacant (quoteMark :: cs) ↔ ∃ rest, cs = quoteMark :: rest ∧ Vacant rest := by
  constructor
  · rintro (_ | ⟨h, -⟩ | rest)
    · exact absurd h (by decide)
    · exact ⟨_, rfl, rest⟩
  · rintro ⟨rest, rfl, h⟩
    exact .quotes h

/-- No other character may stand in a vacant text. -/
theorem not_cons (blank : isBlank c = false) (quote : c ≠ quoteMark) : ¬ Vacant (c :: cs) := by
  rintro (_ | ⟨h, -⟩ | _)
  · rw [blank] at h
    cases h
  · exact quote rfl

/-- No operator cuts a vacant text. -/
theorem cutFrom_eq (h : Vacant cs) (quotes : Nat) : (cutFrom quotes cs).2 = [] := by
  induction h generalizing quotes with
  | nil => rfl
  | blank hblank _ ih =>
    rw [cutFrom_plain (.inr (operator?_of_isBlank hblank))]
    exact ih _
  | quotes _ ih =>
    have plain : operator? quoteMark = none := rfl
    rw [cutFrom_plain (.inr plain), cutFrom_plain (.inr plain)]
    exact ih _

end Vacant

/-- There are no words when none was found and none is pending. -/
theorem pushWord_eq_nil_iff {word : List Char} {argv : List String} :
    pushWord word argv = [] ↔ word = [] ∧ argv = [] := by
  unfold pushWord
  cases word <;> simp

/-- What follows gives no word when it is vacant and nothing was read of the current one; where a
quote is open it has to be closed at once. -/
theorem wordsFrom_eq_nil_iff {word : List Char} {quote : Option Nat} {column : Nat}
    {cs : List Char} :
    wordsFrom word quote column cs = .ok [] ↔
      word = [] ∧ match quote with
        | none => Vacant cs
        | some _ => ∃ rest, cs = quoteMark :: rest ∧ Vacant rest := by
  induction cs generalizing word quote column with
  | nil =>
    cases quote with
    | some q => simp [wordsFrom]
    | none => simpa [wordsFrom, pushWord_eq_nil_iff] using fun _ => Vacant.nil
  | cons c cs ih =>
    rw [wordsFrom_cons]
    split
    case isTrue h =>
      -- a blank ends the word, which must be empty
      obtain ⟨rfl, hblank⟩ := h
      show _ ↔ word = [] ∧ Vacant (c :: cs)
      rw [Vacant.cons_blank_iff hblank]
      have hrest : wordsFrom [] none (column + 1) cs = .ok [] ↔ Vacant cs :=
        ih.trans (and_iff_right rfl)
      rw [← hrest]
      cases wordsFrom [] none (column + 1) cs with
      | error e => simp [Except.map]
      | ok argv => simpa [Except.map] using pushWord_eq_nil_iff
    case isFalse h =>
      rw [ih]
      unfold nextQuote
      by_cases hc : c = quoteMark
      · -- a quote opens a run or closes it, and the word stays
        subst hc
        cases quote with
        | some q => simp
        | none => simp [Vacant.cons_quote_iff]
      · -- any other character is read into the word
        cases quote with
        | some q => simp [hc]
        | none =>
          have hblank : isBlank c = false := by simpa using h
          simp [hc, Vacant.not_cons hblank hc]

/-- A text has no words just when it is vacant. -/
theorem words_eq_nil_iff {cs : List Char} : words cs = .ok [] ↔ Vacant cs :=
  wordsFrom_eq_nil_iff.trans (and_iff_right rfl)

/-- **Vacant lines.** A line describes the empty command exactly when it is made of blanks and of
quotes that are closed at once. -/
theorem ofLine_eq_nil_iff {line : String} :
    Command.ofLine line = .ok (.exec []) ↔ Vacant line.toList := by
  rw [ofLine_iff]
  constructor
  · rintro ⟨-, ⟨-, argv, hwords, hargv⟩ | ⟨-, complete, hpipeline⟩⟩
    · cases hargv
      exact words_eq_nil_iff.1 hwords
    · -- a line with an operator describes a command that is not empty
      have hempty := pipeline_isEmpty (segmentsFrom_ne_nil _ _) complete
      rw [segmentsOf] at hpipeline
      rw [← hpipeline] at hempty
      cases hempty
  · intro h
    have hwords := words_eq_nil_iff.2 h
    refine ⟨?_, .inl ⟨h.cutFrom_eq 0, [], hwords, rfl⟩⟩
    cases hopen : openQuote none 0 line.toList with
    | none => rfl
    | some q =>
      rw [words_error hopen] at hwords
      cases hwords

/-- Two pairs of quotes, and a pair with a blank inside. -/
example : Command.ofLine "\"\" \"\"" = .ok (.exec []) ∧
    Command.ofLine "\" \"" = .ok (.exec [" "]) :=
  ⟨rfl, rfl⟩

end LineShell
