import LineShell.Proofs.Builtin
import LineShell.Proofs.Reading.Defect
import LineShell.Rehearsal.Stage

namespace LineShell

/-!
# The column of a quote that is not closed

A line that leaves a quote open is refused, and the user is told where the quote stands.  When the
line is read as a command, the column counts from its start.  What follows `cd` is split into words
by itself, and then the column counts from there.

* `UnclosedAt` — where a text leaves a quote open.
* `openQuote_of_error` — the quote that a rejection tells is open in the line.
* `LineOutcome.column?` — the column that the user is told.
* `column?_evaluate` — where the quote then stands: at that column of the line, or two characters
  behind it when the line is a `cd`.
* `column?_cd_misplaced` — so the column is not always counted from the start of the line.
-/

/-! ### The quote that is open -/

/-- The text leaves the quote open that stands behind `column` characters: the quotes before it are
paired, and none follows. -/
def UnclosedAt (cs : List Char) (column : Nat) : Prop :=
  ∃ before after, cs = before ++ quoteMark :: after ∧ Even (before.count quoteMark) ∧
    quoteMark ∉ after ∧ column = before.length

/-- The column that a reader of quotes finds is that of the quote that is not closed. -/
theorem openQuote_eq_some_iff {cs : List Char} {column : Nat} :
    openQuote none 0 cs = some column ↔ UnclosedAt cs column := by
  constructor
  · intro h
    obtain ⟨before, after, rfl, hafter, rfl⟩ | ⟨-, hnone⟩ := openQuote_some h
    · refine ⟨before, after, rfl, ?_, hafter, Nat.zero_add _⟩
      -- the number of all quotes is odd, and all but the last stand before it
      have hodd : Odd ((before ++ quoteMark :: after).count quoteMark) := by
        by_contra heven
        rw [openQuote_eq, if_neg heven] at h
        cases h
      rw [List.count_append, List.count_cons_self, List.count_eq_zero.2 hafter, Nat.zero_add,
        Nat.odd_add_one, Nat.not_odd_iff_even] at hodd
      exact hodd
    · cases hnone
  · rintro ⟨before, after, rfl, heven, hafter, rfl⟩
    have hodd : Odd ((before ++ quoteMark :: after).count quoteMark) := by
      rw [List.count_append, List.count_cons_self, List.count_eq_zero.2 hafter, Nat.zero_add]
      exact heven.add_one
    rw [openQuote_eq, if_pos hodd, lastQuote_append hafter]

/-- A character before the quote moves it by one. -/
theorem unclosedAt_cons_iff {c : Char} (hc : c ≠ quoteMark) {cs : List Char} {column : Nat} :
    UnclosedAt (c :: cs) (column + 1) ↔ UnclosedAt cs column := by
  constructor
  · rintro ⟨before, after, heq, heven, hafter, hlength⟩
    cases before with
    | nil => cases hlength
    | cons c' before =>
      obtain ⟨rfl, rfl⟩ := List.cons.inj heq
      rw [List.count_cons_of_ne hc] at heven
      exact ⟨before, after, rfl, heven, hafter, Nat.succ.inj hlength⟩
  · rintro ⟨before, after, rfl, heven, hafter, rfl⟩
    refine ⟨c :: before, after, rfl, ?_, hafter, rfl⟩
    rwa [List.count_cons_of_ne hc]

/-- A text has no words for one reason: it leaves a quote open. -/
theorem words_eq_error_iff {cs : List Char} {e : ParseError} :
    words cs = .error e ↔ ∃ column, e = .unterminatedQuote column ∧ UnclosedAt cs column := by
  cases hopen : openQuote none 0 cs with
  | some q =>
    rw [words_error hopen]
    simp only [← openQuote_eq_some_iff, hopen]
    constructor
    · rintro ⟨⟩
      exact ⟨q, rfl, rfl⟩
    · rintro ⟨_, rfl, ⟨⟩⟩
      rfl
  | none =>
    obtain ⟨argv, hwords⟩ := exists_words hopen
    simp [hwords, ← openQuote_eq_some_iff, hopen]

/-! ### Lines read as commands -/

/-- A line that is rejected for a quote leaves that quote open. -/
theorem openQuote_of_error {line : String} {column : Nat}
    (h : Command.ofLine line = .error (.unterminatedQuote column)) :
    openQuote none 0 line.toList = some column := by
  -- the first defect is the quote at the column where the open quote is, if there is one
  have told : ∀ q, openQuote none 0 line.toList
      = (if Odd (line.toList.count quoteMark) then some q else none) → column = q := by
    intro q hq
    have hfirst := rejection?_ofLine_of_openQuote hq
    rw [h] at hfirst
    exact (unterminatedQuote_mem_defectsFrom (List.mem_of_mem_head? hfirst.symm)).1
  by_cases hodd : Odd (line.toList.count quoteMark)
  · rw [openQuote_eq, if_pos hodd, told _ (openQuote_eq _)]
  · -- without an open quote the defects are the same for every column
    have hnone : openQuote none 0 line.toList = none := by rw [openQuote_eq, if_neg hodd]
    have hcolumn := told column (by rw [hnone, if_neg hodd])
    have hnext := told (column + 1) (by rw [hnone, if_neg hodd])
    omega

/-! ### The column that is told -/

/-- The column that the user is told for a quote that is not closed. -/
def LineOutcome.column? : LineOutcome → Option Nat
  | .rejected (.unterminatedQuote column) => some column
  | .builtinFailed (.badArguments (.unterminatedQuote column)) => some column
  | _ => none

section Evaluate

variable {σ : Type} [System σ] {session : Session} {line text : String} {s : σ} {column : Nat}

/-- The arguments of `cd` are bad for one reason: they leave a quote open. -/
theorem directoryWanted_badArguments_iff {home : String} {arguments : List Char} {e : ParseError} :
    directoryWanted home arguments = .error (.badArguments e) ↔
      ∃ column, e = .unterminatedQuote column ∧ UnclosedAt arguments column := by
  rw [← words_eq_error_iff]
  unfold directoryWanted
  split
  case h_1 e' hwords => simp [hwords]
  all_goals
    rename_i hwords
    simp [hwords]

/-- So `cd` tells a column for that quote, and for nothing else. -/
theorem column?_runBuiltin_cd {arguments : List Char} :
    (runBuiltin session (.changeDirectory arguments) s).1.column? = some column ↔
      UnclosedAt arguments column := by
  have bad : ∀ q, directoryWanted session.home arguments
      = .error (.badArguments (.unterminatedQuote q)) ↔ UnclosedAt arguments q :=
    fun q => by simp [directoryWanted_badArguments_iff]
  rw [← bad]
  simp only [runBuiltin, enterDirectory]
  cases directoryWanted session.home arguments with
  | error e =>
    rcases e with ⟨_ | _ | _ | _⟩ | _ | _ <;> simp [LineOutcome.column?]
  | ok target =>
    -- a directory that cannot be entered has no column
    dsimp only
    rcases System.changeDirectory target (System.note (.changingDirectory target) s) with
      ⟨fault | _, s'⟩ <;> simp [LineOutcome.column?]

/-- A line that is read as a command tells the column for a quote that it leaves open. -/
theorem unclosedAt_of_runCommandLine
    (h : (runCommandLine session text s).1.column? = some column) :
    UnclosedAt text.toList column := by
  rw [← openQuote_eq_some_iff]
  unfold runCommandLine at h
  cases hread : Command.ofLine text with
  | error e =>
    rw [hread] at h
    cases e with
    | unterminatedQuote q =>
      obtain rfl : q = column := Option.some.inj h
      exact openQuote_of_error hread
    | _ => cases h
  | ok command =>
    rw [hread] at h
    simp only at h
    split at h <;> cases h

/-- **The column that is told.** The user is told a column only for the quote that the line leaves
open.  For a line that is read as a command it is the number of characters before that quote.  For a
`cd` it is two less, as the two characters of its name are not counted. -/
theorem column?_evaluate (session : Session) (line : String) (s : σ) :
    let text := trimBlanks line
    let outcome := (evaluate session line s).1
    (¬ IsCd text → ∀ column, outcome.column? = some column → UnclosedAt text.toList column) ∧
      (IsCd text → ∀ column, outcome.column? = some column ↔
        UnclosedAt text.toList (column + 2)) := by
  intro text outcome
  refine ⟨fun cd column h => ?_, fun cd column => ?_⟩
  · -- a line to leave has no column, and any other is read, unless nothing is left of it
    by_cases quit : IsQuit text
    · rw [show outcome = .quit from congrArg Prod.fst (evaluate_of_isQuit quit)] at h
      cases h
    rw [show outcome = _ from congrArg Prod.fst (evaluate_of_command cd quit)] at h
    split at h
    · cases h
    · exact unclosedAt_of_runCommandLine h
  · rw [show outcome = _ from congrArg Prod.fst (evaluate_of_isCd cd), column?_runBuiltin_cd,
      cd.toList_eq, unclosedAt_cons_iff (by decide), unclosedAt_cons_iff (by decide)]

end Evaluate

/-- The quote of this line stands at column 3, and the user is told column 1. -/
theorem column?_cd_misplaced :
    (evaluate ⟨"/", .defaults⟩ "cd \"a" (⟨{ world := {} }, .empty⟩ : RehearsalStage)).1
        = .builtinFailed (.badArguments (.unterminatedQuote 1)) ∧
      UnclosedAt (trimBlanks "cd \"a").toList 3 ∧
      ¬ UnclosedAt (trimBlanks "cd \"a").toList 1 := by
  simp only [← openQuote_eq_some_iff]
  decide +kernel

end LineShell
