import LineShell.Proofs.Reading.Defect

namespace LineShell

/-!
# Lines joined by a pipe

A line that holds a command can be put before another line with a pipe between them.  The command
of the first goes to the left of what the second gives, and what is wrong with the second is wrong
with both together, only that the column of an open quote moves.

* `Command.appendPipe` — a command with one more behind its last pipe.
* `readFrom_join` — the pipe ends the reading of the first line.
* `ParseError.shift`, `readFrom_shift` — the second line is read as it is by itself, further on.
* `ofLine_join` — both together.
-/

/-- A command with one more at the right end of its pipes. -/
def Command.appendPipe : Command → Command → Command
  | .pipe left right, last => .pipe left (right.appendPipe last)
  | c, last => .pipe c last

/-- A command is appended to the right side of a pipe. -/
@[simp]
theorem Command.appendPipe_pipe (left right last : Command) :
    (Command.pipe left right).appendPipe last = .pipe left (right.appendPipe last) := rfl

/-- A pipe is not empty. -/
@[simp]
theorem Command.isEmpty_appendPipe (c last : Command) : (c.appendPipe last).isEmpty = false := by
  cases c <;> rfl

/-- Joins a command to the rest of its line behind its last pipe. -/
def joinTo (left right : Command) : Except ParseError Command :=
  if right.isEmpty then .error .missingPipeTarget else .ok (left.appendPipe right)

/-- A pipe before a command that is joined stays where it is. -/
theorem bind_joinTo_bind_pipeTo (left right : Command) (rest : Except ParseError Command) :
    (rest.bind (joinTo right)).bind (pipeTo left) = rest.bind (joinTo (.pipe left right)) := by
  cases rest with
  | error e => rfl
  | ok last =>
    show (joinTo right last).bind (pipeTo left) = joinTo (.pipe left right) last
    unfold joinTo
    split
    · rfl
    · simp [Except.bind, pipeTo]

/-! ### The first line -/

section FirstLine

variable {part : Part} {text : List Char} {c : Command}

/-- What a part is finished as at the end of a line, it is finished as at a pipe, unless it is
nothing. -/
theorem Part.finish_pipe (h : part.finish text none = .ok c) (named : c.isEmpty = false) :
    part.finish text (some .pipe) = .ok c := by
  cases part with
  | program =>
    obtain ⟨argv, hwords, -, rfl⟩ := program_finish_iff.1 h
    have hargv : argv ≠ [] := by
      rintro rfl
      cases named
    exact program_finish_iff.2 ⟨argv, hwords, fun _ => hargv, rfl⟩
  | target inner direction => exact h

/-- It holds no pipe yet. -/
theorem Part.pipeTo_eq_joinTo {op : Option Operator} (h : part.finish text op = .ok c) :
    pipeTo c = joinTo c := by
  cases part with
  | program =>
    obtain ⟨argv, -, -, rfl⟩ := program_finish_iff.1 h
    rfl
  | target inner direction =>
    obtain ⟨-, rfl⟩ := target_finish_iff.1 h
    rfl

end FirstLine

/-- **The first line.** A text that is read as a command is read the same before a pipe, and the
command of what follows comes behind its last pipe. -/
theorem readFrom_join {part : Part} {text : List Char} {quote : Option Nat} {column : Nat}
    {cs : List Char} {c : Command} (h : Command.readFrom part text quote column cs = .ok c)
    (named : c.isEmpty = false) (rest : List Char) :
    Command.readFrom part text quote column (cs ++ '|' :: rest)
      = (Command.readFrom .program [] none (column + cs.length + 1) rest).bind (joinTo c) := by
  induction cs generalizing part text quote column c with
  | nil =>
    cases quote with
    | some q => cases h
    | none =>
      have hfinish : part.finish text.reverse none = .ok c := h
      rw [List.nil_append, readFrom_pipe, Part.finish_pipe hfinish named,
        ← Part.pipeTo_eq_joinTo hfinish]
      rfl
  | cons c' cs ih =>
    have hcolumn : column + (c' :: cs).length + 1 = column + 1 + cs.length + 1 := by
      rw [List.length_cons]
      omega
    rw [List.cons_append, hcolumn]
    by_cases hplain : quote ≠ none ∨ operator? c' = none
    · rw [readFrom_plain hplain] at h ⊢
      exact ih h named
    · -- the character is an operator outside quotes
      obtain ⟨hquote, hop⟩ := not_or.1 hplain
      obtain rfl : quote = none := not_not.1 hquote
      obtain ⟨op, hop⟩ := Option.ne_none_iff_exists'.1 hop
      obtain rfl := eq_symbol_of_operator? hop
      cases op with
      | pipe =>
        rw [Operator.symbol, readFrom_pipe] at h ⊢
        obtain ⟨left, hleft, h⟩ := bind_eq_ok_iff.1 h
        obtain ⟨right, hright, h⟩ := bind_eq_ok_iff.1 h
        obtain ⟨hnamed, rfl⟩ := pipeTo_iff.1 h
        rw [hleft]
        show (Command.readFrom .program [] none (column + 1) (cs ++ '|' :: rest)).bind _ = _
        rw [ih hright hnamed, bind_joinTo_bind_pipeTo]
      | redirect direction =>
        rw [Operator.symbol, readFrom_redirect] at h ⊢
        obtain ⟨built, hbuilt, h⟩ := bind_eq_ok_iff.1 h
        rw [hbuilt]
        exact ih h named

/-! ### The second line -/

/-- A rejection of a text that stands behind `n` more characters. -/
def ParseError.shift (n : Nat) : ParseError → ParseError
  | .unterminatedQuote column => .unterminatedQuote (column + n)
  | e => e

/-- A part whose quotes are paired tells no column. -/
theorem Part.finish_mapError_shift (n : Nat) {text : List Char} (even : Even (text.count quoteMark))
    (op : Option Operator) (part : Part) :
    (part.finish text op).mapError (·.shift n) = part.finish text op := by
  cases part with
  | program =>
    obtain ⟨argv, hwords⟩ := exists_words_of_even even
    show ((words text).bind _).mapError _ = (words text).bind _
    rw [hwords]
    cases op with
    | none => rfl
    | some op => cases argv <;> rfl
  | target inner direction =>
    unfold Part.finish
    dsimp only
    split <;> rfl

/-- The quotes of a text with one more character in front. -/
theorem count_cons_quoteMark (c : Char) (text : List Char) :
    (c :: text).count quoteMark = countQuote (text.count quoteMark) c := by
  unfold countQuote
  by_cases hc : c = quoteMark
  · rw [if_pos hc, hc, List.count_cons_self]
  · rw [if_neg hc, List.count_cons_of_ne hc]

/-- Behind `n` more characters an open quote stands `n` columns further. -/
theorem nextQuote_shift (n : Nat) (quote : Option Nat) (column : Nat) (c : Char) :
    nextQuote (quote.map (· + n)) (column + n) c = (nextQuote quote column c).map (· + n) := by
  unfold nextQuote
  by_cases hc : c = quoteMark
  · rw [if_pos hc, if_pos hc]
    cases quote <;> rfl
  · rw [if_neg hc, if_neg hc]

/-- A change of errors that does not touch the first of two steps is one of the second. -/
theorem bind_mapError {ε α : Type} (f : ε → ε) {x : Except ε α} (h : x.mapError f = x)
    (next : α → Except ε α) :
    (x.bind next).mapError f = x.bind fun a => (next a).mapError f := by
  cases x with
  | error e => exact h
  | ok a => rfl

/-- **The second line.** A text that stands further on is read as it is by itself, and only the
column of an open quote moves. -/
theorem readFrom_shift (n : Nat) (part : Part) {text : List Char} {quote : Option Nat}
    (paired : quote = none ↔ Even (text.count quoteMark)) (column : Nat) (cs : List Char) :
    Command.readFrom part text (quote.map (· + n)) (column + n) cs
      = (Command.readFrom part text quote column cs).mapError (·.shift n) := by
  -- A part is finished outside quotes only, so its own rejections hold no column.
  induction cs generalizing part text quote column with
  | nil =>
    cases quote with
    | some q => rfl
    | none =>
      have even : Even (text.reverse.count quoteMark) := by
        rw [List.count_reverse]
        exact paired.1 rfl
      exact (part.finish_mapError_shift n even none).symm
  | cons c cs ih =>
    have hcolumn : column + n + 1 = column + 1 + n := by omega
    by_cases hplain : quote ≠ none ∨ operator? c = none
    · have hplain' : quote.map (· + n) ≠ none ∨ operator? c = none :=
        hplain.imp_left (mt Option.map_eq_none_iff.1)
      rw [readFrom_plain hplain, readFrom_plain hplain', nextQuote_shift, hcolumn]
      apply ih
      rw [count_cons_quoteMark]
      exact nextQuote_eq_none_iff paired column c
    · obtain ⟨hquote, hop⟩ := not_or.1 hplain
      obtain rfl : quote = none := not_not.1 hquote
      obtain ⟨op, hop⟩ := Option.ne_none_iff_exists'.1 hop
      obtain rfl := eq_symbol_of_operator? hop
      have even : Even (text.reverse.count quoteMark) := by
        rw [List.count_reverse]
        exact paired.1 rfl
      have hnil : (none : Option Nat) = none ↔ Even (([] : List Char).count quoteMark) := by simp
      cases op with
      | pipe =>
        have hrest := ih .program hnil (column + 1)
        rw [Option.map_none] at hrest ⊢
        rw [Operator.symbol, readFrom_pipe, readFrom_pipe,
          bind_mapError _ (part.finish_mapError_shift n even _), hcolumn, hrest]
        congr 1
        funext left
        cases Command.readFrom .program [] none (column + 1) cs with
        | error e => rfl
        | ok right =>
          show pipeTo left right = (pipeTo left right).mapError _
          unfold pipeTo
          split <;> rfl
      | redirect direction =>
        rw [Option.map_none, Operator.symbol, readFrom_redirect, readFrom_redirect,
          bind_mapError _ (part.finish_mapError_shift n even _), hcolumn]
        congr 1
        funext built
        exact ih (.target built direction) hnil (column + 1)

/-! ### Both lines -/

/-- **Lines joined by a pipe.** A line with a command, a pipe and any other line are together the
command of the first with that of the second behind its last pipe.  The second line must hold a
command, and if it is rejected, so are both together, for the same reason: a quote that it leaves
open stands as much further on as the first line and the pipe are long. -/
theorem ofLine_join {a : String} {left : Command} (read : Command.ofLine a = .ok left)
    (named : left ≠ .exec []) (b : String) :
    Command.ofLine (a ++ "|" ++ b) =
      match Command.ofLine b with
      | .ok right =>
        if right = .exec [] then .error .missingPipeTarget else .ok (left.appendPipe right)
      | .error (.unterminatedQuote column) => .error (.unterminatedQuote (column + a.length + 1))
      | .error e => .error e := by
  have hnamed : left.isEmpty = false := Bool.eq_false_iff.2 (mt Command.isEmpty_iff.1 named)
  have hchars : (a ++ "|" ++ b).toList = a.toList ++ '|' :: b.toList := by simp
  have hstart : (none : Option Nat) = none ↔ Even (([] : List Char).count quoteMark) := by simp
  have hshift := readFrom_shift (a.length + 1) .program hstart 0 b.toList
  rw [Option.map_none, Nat.zero_add] at hshift
  -- the rest of the line is read as the second one, with its columns shifted
  have hjoin : Command.ofLine (a ++ "|" ++ b)
      = ((Command.ofLine b).mapError (·.shift (a.length + 1))).bind (joinTo left) := by
    rw [Command.ofLine, Command.ofChars, hchars, readFrom_join read hnamed, String.length_toList,
      Nat.zero_add, hshift]
    rfl
  rw [hjoin]
  cases Command.ofLine b with
  | ok right =>
    show joinTo left right = _
    simp only [joinTo, Command.isEmpty_iff]
  | error e => cases e <;> rfl

/-- The quote of the second line stands at column 4 there, and 13 characters further on in both. -/
theorem ofLine_join_unclosed :
    Command.ofLine "é \"|\" <x | y" = .ok (.pipe (.redirect (.exec ["é", "|"]) .input "x")
        (.exec ["y"])) ∧
      Command.ofLine "z > \"ü" = .error (.unterminatedQuote 4) ∧
      Command.ofLine ("é \"|\" <x | y" ++ "|" ++ "z > \"ü") = .error (.unterminatedQuote 17) := by
  have read : Command.ofLine "é \"|\" <x | y" = .ok (.pipe (.redirect (.exec ["é", "|"]) .input "x")
      (.exec ["y"])) := rfl
  have second : Command.ofLine "z > \"ü" = .error (.unterminatedQuote 4) := rfl
  refine ⟨read, second, ?_⟩
  rw [ofLine_join read (by decide), second]
  rfl

end LineShell
