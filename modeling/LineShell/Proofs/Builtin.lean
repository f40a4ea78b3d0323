import LineShell.Line
import Mathlib.Data.List.TakeDrop
import Mathlib.Data.List.TakeWhile

namespace LineShell

/-!
# Lines for the shell itself

What a line asks of the shell itself is told by the text before its first blank.  A line is trimmed
before this is looked at, and again while it is looked at, which changes nothing.

* `stripEnds_stripEnds` — a text is trimmed once.
* `IsCd`, `IsQuit` — the lines that are for the shell itself.
* `evaluate_of_isQuit`, `evaluate_of_isCd`, `evaluate_of_command` — what is done with a line of each
  kind, on any system.
-/

/-! ### Trimmed texts -/

section Trimming

variable {p : Char → Bool} {cs : List Char}

/-- What is left of a text when its ends are stripped does not start with what was stripped. -/
theorem head?_stripEnds {c : Char} (h : (stripEnds p cs).head? = some c) : p c = false := by
  -- what is left is the start of the text behind its first characters of the class
  have hprefix : stripEnds p cs <+: cs.dropWhile p := by
    rw [← List.reverse_suffix, stripEnds, List.reverse_reverse]
    exact List.dropWhile_suffix p
  obtain ⟨tail, htail⟩ := hprefix
  have hhead : (cs.dropWhile p).head? = some c := by
    rw [← htail, List.head?_append, h]
    rfl
  have := List.head?_dropWhile_not p cs
  rw [hhead] at this
  exact this

/-- What is left of a text when its ends are stripped does not end with what was stripped. -/
theorem getLast?_stripEnds {c : Char} (h : (stripEnds p cs).getLast? = some c) : p c = false := by
  rw [stripEnds, List.getLast?_reverse] at h
  have := List.head?_dropWhile_not p (cs.dropWhile p).reverse
  rw [h] at this
  exact this

/-- Nothing is dropped from a text that starts with something to be kept. -/
theorem dropWhile_of_head? (h : ∀ c, cs.head? = some c → p c = false) : cs.dropWhile p = cs := by
  cases cs with
  | nil => rfl
  | cons c cs => exact List.dropWhile_cons_of_neg (by simp [h c rfl])

/-- A text is trimmed once. -/
theorem stripEnds_stripEnds : stripEnds p (stripEnds p cs) = stripEnds p cs := by
  have hfront : (stripEnds p cs).dropWhile p = stripEnds p cs :=
    dropWhile_of_head? fun c h => head?_stripEnds h
  have hback : (stripEnds p cs).reverse.dropWhile p = (stripEnds p cs).reverse := by
    refine dropWhile_of_head? fun c h => ?_
    rw [List.head?_reverse] at h
    exact getLast?_stripEnds h
  rw [stripEnds, hfront, hback, List.reverse_reverse]

/-- Only a text of the class is trimmed away. -/
theorem all_of_stripEnds_eq_nil (h : stripEnds p cs = []) : ∀ c ∈ cs, p c = true := by
  rw [stripEnds, List.reverse_eq_nil_iff, List.dropWhile_eq_nil_iff] at h
  cases hfront : cs.dropWhile p with
  | nil => exact List.dropWhile_eq_nil_iff.1 hfront
  | cons c rest =>
    have hnot := List.head?_dropWhile_not p cs
    have hall := h c (by simp [hfront])
    rw [hfront] at hnot
    exact absurd hall (Bool.eq_false_iff.1 hnot)

end Trimming

/-- Trimming blanks a second time changes nothing. -/
@[simp]
theorem trimBlanks_trimBlanks (line : String) : trimBlanks (trimBlanks line) = trimBlanks line := by
  rw [trimBlanks, trimBlanks, String.toList_ofList, stripEnds_stripEnds]

/-- Trimming spaces a second time changes nothing. -/
@[simp]
theorem trimSpaces_trimSpaces (text : String) : trimSpaces (trimSpaces text) = trimSpaces text := by
  rw [trimSpaces, trimSpaces, String.toList_ofList, stripEnds_stripEnds]

/-! ### Lines for the shell itself -/

/-- The text asks for a change of directory: before its first blank stands `cd`. -/
def IsCd (text : String) : Prop :=
  text.toList.takeWhile (fun c => !isBlank c) = ['c', 'd']

/-- The text from the first blank on: the arguments of `cd`. -/
def cdArguments (text : String) : List Char :=
  text.toList.dropWhile fun c => !isBlank c

/-- The text asks to leave. -/
def IsQuit (text : String) : Prop :=
  text = "quit" ∨ text = "exit"

/-- The arguments of `cd` stand behind its two characters. -/
theorem IsCd.toList_eq {text : String} (h : IsCd text) :
    text.toList = 'c' :: 'd' :: cdArguments text := by
  have hwhole : text.toList.takeWhile (fun c => !isBlank c) ++ cdArguments text = text.toList :=
    List.takeWhile_append_dropWhile
  rw [← hwhole, h]
  rfl

/-- Neither an operator nor a quote ends the name. -/
example : IsCd "cd | ls" ∧ ¬ IsCd "cd|ls" ∧ ¬ IsCd "\"cd\" /" := by
  simp [IsCd, isBlank]

/-- A text is cut into head and rest where its first blank stands. -/
theorem headAndRest_eq (cs : List Char) :
    headAndRest cs = (cs.takeWhile fun c => !isBlank c, cs.dropWhile fun c => !isBlank c) :=
  List.span_eq_takeWhile_dropWhile ..

/-- No text that asks to leave is a `cd`. -/
theorem IsQuit.not_isCd {text : String} (h : IsQuit text) : ¬ IsCd text := by
  rcases h with rfl | rfl <;> simp [IsCd, isBlank]

/-- Behind the first blank of a trimmed text stands more than blanks. -/
theorem rest_eq_nil_of_blank {line : String} {q : Char → Bool}
    (h : stripEnds isBlank ((trimBlanks line).toList.dropWhile q) = []) :
    (trimBlanks line).toList.dropWhile q = [] := by
  cases hlast : ((trimBlanks line).toList.dropWhile q).getLast? with
  | none => exact List.getLast?_eq_none_iff.1 hlast
  | some c =>
    have hblank : isBlank c = true :=
      all_of_stripEnds_eq_nil h c (List.mem_of_getLast? hlast)
    -- the last character of the rest is the last one of the text
    obtain ⟨front, hfront⟩ := List.dropWhile_suffix q (l := (trimBlanks line).toList)
    have htext : (trimBlanks line).toList.getLast? = some c := by
      rw [← hfront, List.getLast?_append, hlast]
      rfl
    rw [trimBlanks, String.toList_ofList] at htext
    rw [getLast?_stripEnds htext] at hblank
    cases hblank

section Builtins

variable {line : String}

/-- A `cd` is a builtin with the arguments behind its name. -/
theorem ofLine?_of_isCd (h : IsCd (trimBlanks line)) :
    Builtin.ofLine? (trimBlanks line)
      = some (.changeDirectory (cdArguments (trimBlanks line))) := by
  rw [Builtin.ofLine?, trimBlanks_trimBlanks, headAndRest_eq]
  simp only [show (trimBlanks line).toList.takeWhile (fun c => !isBlank c) = ['c', 'd'] from h]
  rfl

/-- A text that asks to leave is a builtin. -/
theorem ofLine?_of_isQuit (h : IsQuit (trimBlanks line)) :
    Builtin.ofLine? (trimBlanks line) = some .quit := by
  rcases h with h | h <;> rw [h] <;> decide +kernel

/-- There are no other builtins. -/
theorem ofLine?_eq_none (cd : ¬ IsCd (trimBlanks line)) (quit : ¬ IsQuit (trimBlanks line)) :
    Builtin.ofLine? (trimBlanks line) = none := by
  rw [Builtin.ofLine?, trimBlanks_trimBlanks, headAndRest_eq]
  dsimp only
  rw [if_neg, if_neg]
  · rintro ⟨hname, hrest⟩
    -- nothing follows the name, so it is the whole text
    have hwhole : (trimBlanks line).toList.takeWhile (fun c => !isBlank c)
        ++ (trimBlanks line).toList.dropWhile (fun c => !isBlank c) = (trimBlanks line).toList :=
      List.takeWhile_append_dropWhile
    rw [rest_eq_nil_of_blank hrest, List.append_nil] at hwhole
    rw [hwhole, String.ofList_toList] at hname
    exact quit hname
  · intro hname
    exact cd (String.ofList_injective hname)

end Builtins

/-! ### Lines taken in -/

/-- A `cd` is not blank. -/
theorem IsCd.ne_empty {text : String} (h : IsCd text) : text.isEmpty = false := by
  rw [Bool.eq_false_iff, ne_eq, String.isEmpty_iff]
  rintro rfl
  simp [IsCd] at h

/-- A text that asks to leave is not blank. -/
theorem IsQuit.ne_empty {text : String} (h : IsQuit text) : text.isEmpty = false := by
  rcases h with rfl | rfl <;> rfl

section Evaluate

variable {σ : Type} [System σ] {session : Session} {line : String} {s : σ}

/-- A line that asks to leave does nothing else. -/
theorem evaluate_of_isQuit (h : IsQuit (trimBlanks line)) :
    evaluate session line s = (.quit, s) := by
  rw [evaluate, if_neg (Bool.eq_false_iff.1 h.ne_empty)]
  simp only [ofLine?_of_isQuit h, runBuiltin]

/-- A `cd` is carried out by the shell itself. -/
theorem evaluate_of_isCd (h : IsCd (trimBlanks line)) :
    evaluate session line s
      = runBuiltin session (.changeDirectory (cdArguments (trimBlanks line))) s := by
  rw [evaluate, if_neg (Bool.eq_false_iff.1 h.ne_empty)]
  simp only [ofLine?_of_isCd h]

/-- Every other line is run as a command, unless it is blank. -/
theorem evaluate_of_command (cd : ¬ IsCd (trimBlanks line)) (quit : ¬ IsQuit (trimBlanks line)) :
    evaluate session line s = if (trimBlanks line).isEmpty then (.blank, s)
      else runCommandLine session (trimBlanks line) s := by
  simp only [evaluate, ofLine?_eq_none cd quit]

end Evaluate

end LineShell
