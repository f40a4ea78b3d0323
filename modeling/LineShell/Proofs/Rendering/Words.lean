import LineShell.Command.Printer
import LineShell.Proofs.Reading

namespace LineShell

/-!
# Words in a rendered line

A word stands in a line as it is, or between quotes.  Either way the line is read past it, and the
word is read back from it, whatever comes behind.

* `Passes` — a text that is read past without being cut.
* `Spells` — a text that is read as a word.
* `renderWord_passes`, `renderWord_spells` — rendered words are such texts.
* `words_render`, `path_render` — the words of a program and the file of a redirect.
-/

/-! ### Texts that are not cut -/

/-- A text without an operator outside quotes, which leaves no quote open: reading on behind it
holds all of it. -/
def Passes (xs : List Char) : Prop :=
  ∀ part text column rest, ∃ column', Command.readFrom part text none column (xs ++ rest)
    = Command.readFrom part (xs.reverse ++ text) none column' rest

theorem Passes.nil : Passes [] := fun _ _ column _ => ⟨column, rfl⟩

theorem Passes.append {xs ys : List Char} (hx : Passes xs) (hy : Passes ys) :
    Passes (xs ++ ys) := by
  intro part text column rest
  obtain ⟨k, hk⟩ := hx part text column (ys ++ rest)
  obtain ⟨m, hm⟩ := hy part (xs.reverse ++ text) k rest
  refine ⟨m, ?_⟩
  rw [List.append_assoc, hk, hm, List.reverse_append, List.append_assoc]

/-- Characters that are no operators and no quotes. -/
theorem passes_of_plain {xs : List Char} (h : ∀ c ∈ xs, operator? c = none ∧ c ≠ quoteMark) :
    Passes xs := by
  induction xs with
  | nil => exact Passes.nil
  | cons c xs ih =>
    obtain ⟨⟨hop, hc⟩, hxs⟩ := List.forall_mem_cons.1 h
    intro part text column rest
    obtain ⟨k, hk⟩ := ih hxs part (c :: text) (column + 1) rest
    refine ⟨k, ?_⟩
    rw [List.cons_append, readFrom_plain (.inr hop), nextQuote, if_neg hc, hk]
    simp

/-- Between quotes all characters but quotes are read past. -/
theorem readFrom_quoted {xs : List Char} (h : quoteMark ∉ xs) (part : Part) (text : List Char)
    (q column : Nat) (rest : List Char) :
    ∃ column', Command.readFrom part text (some q) column (xs ++ quoteMark :: rest)
      = Command.readFrom part (quoteMark :: (xs.reverse ++ text)) none column' rest := by
  induction xs generalizing text column with
  | nil => exact ⟨column + 1, rfl⟩
  | cons c xs ih =>
    have hc : c ≠ quoteMark := fun hc => h (hc ▸ List.mem_cons_self)
    obtain ⟨k, hk⟩ := ih (fun hmem => h (List.mem_cons_of_mem _ hmem)) (c :: text) (column + 1)
    refine ⟨k, ?_⟩
    rw [List.cons_append, readFrom_plain (.inl (by simp)), nextQuote, if_neg hc, hk]
    simp

/-- What stands between two quotes is passed, operators included. -/
theorem passes_quoted {xs : List Char} (h : quoteMark ∉ xs) :
    Passes (quoteMark :: (xs ++ [quoteMark])) := by
  intro part text column rest
  obtain ⟨k, hk⟩ := readFrom_quoted h part (quoteMark :: text) column (column + 1) rest
  refine ⟨k, ?_⟩
  rw [List.cons_append, List.append_assoc, List.singleton_append,
    readFrom_plain (.inr rfl), nextQuote, if_pos rfl, hk]
  simp

/-! ### Texts that are words -/

/-- A text that is read as the characters of a word. -/
def Spells (xs w : List Char) : Prop :=
  ∀ word column rest, ∃ column', wordsFrom word none column (xs ++ rest)
    = wordsFrom (w.reverse ++ word) none column' rest

/-- Characters that are no blanks and no quotes stand for themselves. -/
theorem spells_of_bare {w : List Char} (h : ∀ c ∈ w, isBlank c = false ∧ c ≠ quoteMark) :
    Spells w w := by
  induction w with
  | nil => exact fun _ column _ => ⟨column, rfl⟩
  | cons c w ih =>
    obtain ⟨⟨hblank, hc⟩, hw⟩ := List.forall_mem_cons.1 h
    intro word column rest
    obtain ⟨k, hk⟩ := ih hw (c :: word) (column + 1) rest
    refine ⟨k, ?_⟩
    rw [List.cons_append, wordsFrom_cons, if_neg (by simp [hblank]), if_neg hc, nextQuote,
      if_neg hc, hk]
    simp

/-- Between quotes all characters but quotes stand for themselves. -/
theorem wordsFrom_quoted {w : List Char} (h : quoteMark ∉ w) (word : List Char) (q column : Nat)
    (rest : List Char) :
    ∃ column', wordsFrom word (some q) column (w ++ quoteMark :: rest)
      = wordsFrom (w.reverse ++ word) none column' rest := by
  induction w generalizing word column with
  | nil => exact ⟨column + 1, rfl⟩
  | cons c w ih =>
    have hc : c ≠ quoteMark := fun hc => h (hc ▸ List.mem_cons_self)
    obtain ⟨k, hk⟩ := ih (fun hmem => h (List.mem_cons_of_mem _ hmem)) (c :: word) (column + 1)
    refine ⟨k, ?_⟩
    rw [List.cons_append, wordsFrom_cons, if_neg (by simp), if_neg hc, nextQuote, if_neg hc, hk]
    simp

/-- What stands between two quotes spells a word, blanks included. -/
theorem spells_quoted {w : List Char} (h : quoteMark ∉ w) :
    Spells (quoteMark :: (w ++ [quoteMark])) w := by
  intro word column rest
  obtain ⟨k, hk⟩ := wordsFrom_quoted h word column (column + 1) rest
  refine ⟨k, ?_⟩
  rw [List.cons_append, List.append_assoc, List.singleton_append, wordsFrom_cons,
    if_neg (fun hblank => absurd hblank.2 (by decide)), if_pos rfl, nextQuote, if_pos rfl, hk]

/-! ### Rendered words -/

/-- A word that needs no quotes holds characters, none of them a space or an operator. -/
theorem plain_of_needsQuotes {w : String} (h : needsQuotes w = false) :
    w.toList ≠ [] ∧ ∀ c ∈ w.toList, isBlank c = false ∧ operator? c = none := by
  unfold needsQuotes at h
  rw [Bool.or_eq_false_iff] at h
  refine ⟨by simpa using h.1, fun c hc => ?_⟩
  have hplain := List.any_eq_false.1 h.2 c hc
  simp only [Bool.or_eq_true, beq_iff_eq, not_or] at hplain
  obtain ⟨⟨⟨hspace, hpipe⟩, hless⟩, hgreater⟩ := hplain
  constructor
  · exact Bool.eq_false_iff.2 fun hblank => hspace (isSpace_of_isBlank hblank)
  · rw [operator?, if_neg hpipe, if_neg hless, if_neg hgreater]

/-- A rendered word is the word as it is, or the word between quotes. -/
theorem renderWord_cases (w : String) :
    ((renderWord w).toList = w.toList ∧ needsQuotes w = false) ∨
      (renderWord w).toList = quoteMark :: (w.toList ++ [quoteMark]) := by
  unfold renderWord
  cases needsQuotes w with
  | false => exact .inl ⟨rfl, rfl⟩
  | true =>
    right
    simp [quoteMark]

variable {w : String}

theorem Command.Sayable.ne_quoteMark (h : Command.Sayable w) {c : Char} (hc : c ∈ w.toList) :
    c ≠ quoteMark := by
  rintro rfl
  exact h.2 hc

/-- A rendered word holds no operator outside quotes and leaves no quote open. -/
theorem renderWord_passes (h : Command.Sayable w) : Passes (renderWord w).toList := by
  rcases renderWord_cases w with ⟨hbare, hplain⟩ | hquoted
  · rw [hbare]
    have hchars := (plain_of_needsQuotes hplain).2
    exact passes_of_plain fun c hc => ⟨(hchars c hc).2, h.ne_quoteMark hc⟩
  · rw [hquoted]
    exact passes_quoted h.2

/-- A rendered word spells the word. -/
theorem renderWord_spells (h : Command.Sayable w) : Spells (renderWord w).toList w.toList := by
  rcases renderWord_cases w with ⟨hbare, hplain⟩ | hquoted
  · rw [hbare]
    have hchars := (plain_of_needsQuotes hplain).2
    exact spells_of_bare fun c hc => ⟨(hchars c hc).1, h.ne_quoteMark hc⟩
  · rw [hquoted]
    exact spells_quoted h.2

/-! ### The words of a program -/

/-- A word that can be said is not empty, so it is kept. -/
theorem pushWord_of_sayable (h : Command.Sayable w) (argv : List String) :
    pushWord (w.toList.reverse ++ []) argv = w :: argv := by
  have hne : w.toList.reverse.isEmpty = false := by simpa using h.1
  rw [List.append_nil, pushWord, hne, List.reverse_reverse, String.ofList_toList]
  rfl

/-- Blanks before a word are no part of it. -/
theorem wordsFrom_lead {lead : List Char} (h : ∀ c ∈ lead, isBlank c = true) (column : Nat)
    (rest : List Char) :
    ∃ column', wordsFrom [] none column (lead ++ rest) = wordsFrom [] none column' rest := by
  induction lead generalizing column with
  | nil => exact ⟨column, rfl⟩
  | cons c lead ih =>
    obtain ⟨hc, hlead⟩ := List.forall_mem_cons.1 h
    obtain ⟨k, hk⟩ := ih hlead (column + 1)
    refine ⟨k, ?_⟩
    rw [List.cons_append, wordsFrom_cons, if_pos ⟨rfl, hc⟩, hk]
    cases wordsFrom [] none k rest <;> rfl

/-- Blanks behind the last word are no part of it. -/
theorem wordsFrom_tail {tail : List Char} (h : ∀ c ∈ tail, isBlank c = true) (word : List Char)
    (column : Nat) : wordsFrom word none column tail = .ok (pushWord word []) := by
  induction tail generalizing word column with
  | nil => rfl
  | cons c tail ih =>
    obtain ⟨hc, htail⟩ := List.forall_mem_cons.1 h
    rw [wordsFrom_cons, if_pos ⟨rfl, hc⟩, ih htail]
    rfl

/-- **Words.** The words of a program are read back from the program as it is rendered. -/
theorem words_render {argv : List String} (h : ∀ w ∈ argv, Command.Sayable w)
    {lead tail : List Char} (hlead : ∀ c ∈ lead, isBlank c = true) (htail : ∀ c ∈ tail, isBlank c = true) :
    words (lead ++ ((Command.exec argv).render.toList ++ tail)) = .ok argv := by
  obtain ⟨k, hk⟩ := wordsFrom_lead hlead 0 ((Command.exec argv).render.toList ++ tail)
  rw [words, hk]
  clear hk
  induction argv generalizing k with
  | nil => exact wordsFrom_tail htail [] k
  | cons w argv ih =>
    obtain ⟨hw, hargv⟩ := List.forall_mem_cons.1 h
    cases argv with
    | nil =>
      obtain ⟨m, hm⟩ := renderWord_spells hw [] k tail
      show wordsFrom [] none k ((" ".intercalate [renderWord w]).toList ++ tail) = _
      rw [String.intercalate_singleton, hm, wordsFrom_tail htail, pushWord_of_sayable hw]
    | cons w' argv =>
      -- the space behind a word ends it
      have hsplit : (Command.exec (w :: w' :: argv)).render.toList ++ tail
          = (renderWord w).toList ++ ' ' :: ((Command.exec (w' :: argv)).render.toList ++ tail) := by
        simp [Command.render, String.intercalate_cons_cons]
      obtain ⟨m, hm⟩ := renderWord_spells hw [] k
        (' ' :: ((Command.exec (w' :: argv)).render.toList ++ tail))
      rw [hsplit, hm, wordsFrom_cons, if_pos ⟨rfl, rfl⟩, ih hargv]
      exact congrArg Except.ok (pushWord_of_sayable hw _)

/-- A program as it is rendered is not cut. -/
theorem exec_render_passes {argv : List String} (h : ∀ w ∈ argv, Command.Sayable w) :
    Passes (Command.exec argv).render.toList := by
  induction argv with
  | nil => exact Passes.nil
  | cons w argv ih =>
    obtain ⟨hw, hargv⟩ := List.forall_mem_cons.1 h
    cases argv with
    | nil =>
      show Passes (" ".intercalate [renderWord w]).toList
      rw [String.intercalate_singleton]
      exact renderWord_passes hw
    | cons w' argv =>
      have hsplit : (Command.exec (w :: w' :: argv)).render.toList
          = (renderWord w).toList ++ ([' '] ++ (Command.exec (w' :: argv)).render.toList) := by
        simp [Command.render, String.intercalate_cons_cons]
      rw [hsplit]
      have hspace : Passes [' '] := passes_of_plain (List.forall_mem_singleton.2 ⟨rfl, by decide⟩)
      exact (renderWord_passes hw).append (hspace.append (ih hargv))

/-! ### The file of a redirect -/

/-- Blanks around a text that neither begins nor ends with one are stripped. -/
theorem stripEnds_pad {p : Char → Bool} {c d : Char} {lead text tail : List Char}
    (hc : p c = false) (hd : p d = false) (hhead : text.head? = some c)
    (hlast : text.getLast? = some d) (hlead : ∀ x ∈ lead, p x = true)
    (htail : ∀ x ∈ tail, p x = true) : stripEnds p (lead ++ (text ++ tail)) = text := by
  obtain ⟨xs, rfl⟩ := List.head?_eq_some_iff.1 hhead
  obtain ⟨ys, hys⟩ := List.getLast?_eq_some_iff.1 hlast
  -- from the front up to the first character, from the back up to the last
  have hfront : (lead ++ (c :: xs ++ tail)).dropWhile p = c :: xs ++ tail := by
    rw [List.dropWhile_append_of_pos hlead, List.cons_append,
      List.dropWhile_cons_of_neg (by simp [hc])]
  have hback : (tail.reverse ++ (c :: xs).reverse).dropWhile p = (c :: xs).reverse := by
    rw [List.dropWhile_append_of_pos (by simpa using htail), hys, List.reverse_append,
      List.reverse_singleton, List.singleton_append, List.dropWhile_cons_of_neg (by simp [hd])]
  rw [stripEnds, hfront, List.reverse_append, hback, List.reverse_reverse]

/-- Without quotes there is nothing to drop. -/
theorem unquote_of_not_mem {cs : List Char} (h : quoteMark ∉ cs) : unquote cs = cs := by
  refine List.filter_eq_self.2 fun c hc => ?_
  have hne : c ≠ quoteMark := fun heq => h (heq ▸ hc)
  simpa using hne

/-- **Files.** The file of a redirect is read back from the path as it is rendered. -/
theorem path_render (h : Command.Sayable w) {lead tail : List Char}
    (hlead : ∀ c ∈ lead, isBlank c = true) (htail : ∀ c ∈ tail, isBlank c = true) :
    unquote (stripEnds isBlank (lead ++ ((renderWord w).toList ++ tail))) = w.toList := by
  rcases renderWord_cases w with ⟨hbare, hplain⟩ | hquoted
  · obtain ⟨hne, hchars⟩ := plain_of_needsQuotes hplain
    rw [hbare, stripEnds_pad (hchars _ (List.head_mem hne)).1 (hchars _ (List.getLast_mem hne)).1
      (List.head?_eq_some_head hne) (List.getLast?_eq_some_getLast hne) hlead htail]
    exact unquote_of_not_mem h.2
  · -- blanks between the quotes are not at an end of the text
    have hquote : isBlank quoteMark = false := by decide
    have hlast : (quoteMark :: (w.toList ++ [quoteMark])).getLast? = some quoteMark := by
      rw [← List.cons_append, List.getLast?_append]
      rfl
    rw [hquoted, stripEnds_pad hquote hquote rfl hlast hlead htail]
    have hunquote : unquote (quoteMark :: (w.toList ++ [quoteMark])) = unquote w.toList := by
      simp [unquote]
    rw [hunquote, unquote_of_not_mem h.2]

end LineShell
