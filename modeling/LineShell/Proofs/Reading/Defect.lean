import LineShell.Proofs.Reading
import Mathlib.Algebra.Ring.Parity
import Mathlib.Data.List.Basic

namespace LineShell

/-!
# Why a line is rejected

The defects of a line are told from its operators and the texts between them, in the order of the
operators.  A line is rejected for the first of them, whatever else is wrong with it.

* `lastQuote`, `openQuote_eq` — the quote that a line leaves open is its last one.
* `defectsOf` — all defects of a line, the leftmost first.
* `Paired` — only the text behind the last operator can hold the quote that is not closed.
* `ofLine_error_iff_head` — a line is rejected for its first defect, and for nothing else.
-/

/-! ### The open quote -/

/-- The number of characters before the last quote of a text. -/
def lastQuote (cs : List Char) : Nat :=
  cs.length - 1 - cs.reverse.idxOf quoteMark

/-- The last quote stands where no other one follows. -/
theorem lastQuote_append {before after : List Char} (h : quoteMark ∉ after) :
    lastQuote (before ++ quoteMark :: after) = before.length := by
  have hindex : (before ++ quoteMark :: after).reverse.idxOf quoteMark = after.length := by
    rw [List.reverse_append, List.reverse_cons, List.append_assoc,
      List.idxOf_append_of_notMem (by simpa using h)]
    simp
  rw [lastQuote, hindex, List.length_append, List.length_cons]
  omega

/-- The quote that is open at the end of a text is its last one, or was open before. -/
theorem openQuote_some {quote : Option Nat} {column q : Nat} {cs : List Char}
    (h : openQuote quote column cs = some q) :
    (∃ before after, cs = before ++ quoteMark :: after ∧ quoteMark ∉ after ∧
        q = column + before.length) ∨ (quoteMark ∉ cs ∧ quote = some q) := by
  induction cs generalizing quote column with
  | nil => exact .inr ⟨List.not_mem_nil, h⟩
  | cons c cs ih =>
    rcases ih h with ⟨before, after, rfl, hafter, rfl⟩ | ⟨hcs, hnext⟩
    · exact .inl ⟨c :: before, after, rfl, hafter, by rw [List.length_cons]; omega⟩
    · -- no quote follows, so the character is the last one or there is none
      by_cases hc : c = quoteMark
      · subst hc
        refine .inl ⟨[], cs, rfl, hcs, ?_⟩
        cases quote with
        | some q' => cases hnext
        | none => exact (Option.some.inj hnext).symm
      · have hquote : nextQuote quote column c = quote := if_neg hc
        exact .inr ⟨by simp [hcs, Ne.symm hc], hquote ▸ hnext⟩

/-- A line leaves a quote open when the number of its quotes is odd, and that is the last one. -/
theorem openQuote_eq (cs : List Char) :
    openQuote none 0 cs = if Odd (cs.count quoteMark) then some (lastQuote cs) else none := by
  have hstart : (none : Option Nat) = none ↔ Even 0 := by simp
  have hnone := openQuote_eq_none_iff hstart 0 cs
  rw [Nat.zero_add] at hnone
  split
  case isTrue hodd =>
    obtain ⟨q, hq⟩ := Option.ne_none_iff_exists'.1 (mt hnone.1 (Nat.not_even_iff_odd.2 hodd))
    rcases openQuote_some hq with ⟨before, after, rfl, hafter, rfl⟩ | ⟨-, hnil⟩
    · rw [hq, lastQuote_append hafter, Nat.zero_add]
    · cases hnil
  case isFalse hodd => exact hnone.2 (Nat.not_odd_iff_even.1 hodd)

/-! ### Defects -/

/-- Whether the text behind an operator, or at the start of a line, is to hold a program. -/
def startsProgram : Option Operator → Bool
  | none | some .pipe => true
  | some (.redirect _) => false

/-- Whether the quotes of a text are paired and it has no words. -/
def isWordless (text : List Char) : Bool :=
  match words text with
  | .ok argv => argv.isEmpty
  | .error _ => false

/-- What is wrong before an operator: a program has no name.  `before` is the operator before the
text. -/
def commandDefect (before : Option Operator) (text : List Char) (op : Operator) : List ParseError :=
  if startsProgram before ∧ isWordless text then [.missingCommand op] else []

/-- What is wrong behind an operator that is a redirect: the text holds the quote that is not
closed, which stands at `column`, or it names no file. -/
def targetDefect (column : Nat) (op : Operator) (text : List Char) : List ParseError :=
  match op with
  | .pipe => []
  | .redirect direction =>
    if Odd (text.count quoteMark) then [.unterminatedQuote column]
    else if unquote (stripEnds isBlank text) = [] then [.missingRedirectTarget direction]
    else []

/-- What is wrong behind the last operator when it is no redirect: the text holds the quote that is
not closed, or a pipe leads nowhere. -/
def endDefect (column : Nat) (before : Option Operator) (text : List Char) : List ParseError :=
  if startsProgram before then
    if Odd (text.count quoteMark) then [.unterminatedQuote column]
    else if before = some .pipe ∧ isWordless text then [.missingPipeTarget]
    else []
  else []

/-- The defects of a text, which stands behind the operator `before`, and of the pieces behind it,
the leftmost first. -/
def defectsFrom (column : Nat) (before : Option Operator) (text : List Char) :
    List (Operator × List Char) → List ParseError
  | [] => endDefect column before text
  | (op, next) :: pieces =>
    commandDefect before text op ++ targetDefect column op next ++
      defectsFrom column (some op) next pieces

/-- The defects of a line, the leftmost first. -/
def defectsOf (line : String) : List ParseError :=
  defectsFrom (lastQuote line.toList) none (cutFrom 0 line.toList).1 (cutFrom 0 line.toList).2

/-! ### Quotes in the pieces -/

/-- An even number of quotes stands before each operator, and `total` is the number of all quotes;
`quotes` of them stand before the text. -/
def Paired (total quotes : Nat) (text : List Char) : List (Operator × List Char) → Prop
  | [] => quotes + text.count quoteMark = total
  | (_, next) :: pieces =>
    Even (quotes + text.count quoteMark) ∧
      Paired total (quotes + text.count quoteMark) next pieces

/-- A character that belongs to a text counts for that text. -/
theorem Paired.cons {total quotes : Nat} {c : Char} {text : List Char}
    {pieces : List (Operator × List Char)} (h : Paired total (countQuote quotes c) text pieces) :
    Paired total quotes (c :: text) pieces := by
  cases pieces with
  | nil => rwa [Paired, ← countQuote_add]
  | cons piece pieces => rwa [Paired, ← countQuote_add]

/-- Cutting a text pairs the quotes of its pieces. -/
theorem cutFrom_paired (quotes : Nat) (cs : List Char) :
    Paired (quotes + cs.count quoteMark) quotes (cutFrom quotes cs).1 (cutFrom quotes cs).2 := by
  induction cs generalizing quotes with
  | nil => rfl
  | cons c cs ih =>
    have hnext := ih (countQuote quotes c)
    rw [countQuote_add] at hnext
    by_cases hplain : ¬ Even quotes ∨ operator? c = none
    · rw [cutFrom_plain hplain]
      exact hnext.cons
    · -- an operator that cuts is no quote and stands outside quotes
      obtain ⟨heven, hop⟩ := not_or.1 hplain
      obtain ⟨op, hop⟩ := Option.ne_none_iff_exists'.1 hop
      obtain rfl := eq_symbol_of_operator? hop
      have hcount : countQuote quotes op.symbol = quotes := if_neg op.symbol_ne_quoteMark
      rw [hcount] at hnext
      rw [cutFrom_structural (not_not.1 heven)]
      exact ⟨not_not.1 heven, hnext⟩

/-- A text with an even number of quotes has words. -/
theorem exists_words_of_even {text : List Char} (h : Even (text.count quoteMark)) :
    ∃ argv, words text = .ok argv := by
  refine exists_words ?_
  rw [openQuote_eq, if_neg (Nat.not_odd_iff_even.2 h)]

/-! ### The first defect -/

/-- The part that the text behind an operator is for. -/
def Part.Behind (before : Option Operator) : Part → Prop
  | .program => startsProgram before = true
  | .target _ direction => before = some (.redirect direction)

/-- What is wrong with the text of a redirect whose operator was read before. -/
def Part.defect (column : Nat) (text : List Char) : Part → List ParseError
  | .program => []
  | .target _ direction => targetDefect column (.redirect direction) text

/-- A part that ends at an operator, with its quotes paired, is rejected for the first defect of its
text. -/
theorem Part.finish_defect {before : Option Operator} {part : Part} {text : List Char}
    (behind : part.Behind before) (even : Even (text.count quoteMark)) (column : Nat)
    (op : Operator) :
    (∃ e, part.finish text (some op) = .error e ∧
        part.defect column text ++ commandDefect before text op = [e]) ∨
      ∃ c, part.finish text (some op) = .ok c ∧
        part.defect column text ++ commandDefect before text op = [] := by
  cases part with
  | program =>
    have hstarts : startsProgram before = true := behind
    obtain ⟨argv, hwords⟩ := exists_words_of_even even
    by_cases hargv : argv = []
    · subst hargv
      refine .inl ⟨.missingCommand op, ?_, ?_⟩
      · show (words text).bind _ = _
        rw [hwords]
        rfl
      · simp [Part.defect, commandDefect, hstarts, isWordless, hwords]
    · refine .inr ⟨.exec argv, program_finish_iff.2 ⟨argv, hwords, fun _ => hargv, rfl⟩, ?_⟩
      simp [Part.defect, commandDefect, isWordless, hwords, hargv]
  | target inner direction =>
    obtain rfl : before = some (.redirect direction) := behind
    have hodd : ¬ Odd (text.count quoteMark) := Nat.not_odd_iff_even.2 even
    by_cases htarget : unquote (stripEnds isBlank text) = []
    · refine .inl ⟨.missingRedirectTarget direction, ?_, ?_⟩
      · simp [Part.finish, redirectTarget_eq, htarget]
      · simp [Part.defect, targetDefect, hodd, htarget, commandDefect, startsProgram]
    · refine .inr ⟨_, target_finish_iff.2 ⟨htarget, rfl⟩, ?_⟩
      simp [Part.defect, targetDefect, hodd, htarget, commandDefect, startsProgram]

/-- The error of a reading behind the operator `before`: a pipe must not lead to the empty
command. -/
def rejection? (before : Option Operator) : Except ParseError Command → Option ParseError
  | .error e => some e
  | .ok c => if before = some .pipe ∧ c.isEmpty then some .missingPipeTarget else none

/-- A command that is not empty may stand behind any operator. -/
theorem rejection?_of_nonempty {x : Except ParseError Command}
    (h : ∀ c, x = .ok c → c.isEmpty = false) (before before' : Option Operator) :
    rejection? before x = rejection? before' x := by
  cases x with
  | error e => rfl
  | ok c => simp [rejection?, h c rfl]

/-- What follows a pipe is rejected behind the pipe or not at all. -/
theorem rejection?_pipeTo (before : Option Operator) (left : Command)
    (right : Except ParseError Command) :
    rejection? before (right.bind (pipeTo left)) = rejection? (some .pipe) right := by
  cases right with
  | error e => rfl
  | ok c =>
    show rejection? before (pipeTo left c) = _
    unfold pipeTo
    cases hempty : c.isEmpty <;> simp [rejection?, hempty]

/-- A redirect is no empty command, whatever follows. -/
theorem readPieces_target_nonempty {quote : Option Nat} {inner : Command} {direction : Direction}
    {text : List Char} {pieces : List (Operator × List Char)} {c : Command}
    (h : readPieces quote (.target inner direction) text pieces = .ok c) : c.isEmpty = false := by
  induction pieces generalizing inner direction text with
  | nil =>
    cases quote with
    | some q => cases h
    | none =>
      have hfinish : (Part.target inner direction).finish text none = .ok c := h
      obtain ⟨-, rfl⟩ := target_finish_iff.1 hfinish
      rfl
  | cons piece pieces ih =>
    rcases piece with ⟨_ | direction', next⟩
    · -- behind a pipe there is a pipe
      obtain ⟨left, -, h⟩ := bind_eq_ok_iff.1 h
      obtain ⟨right, -, h⟩ := bind_eq_ok_iff.1 h
      obtain ⟨-, rfl⟩ := pipeTo_iff.1 h
      rfl
    · obtain ⟨built, -, h⟩ := bind_eq_ok_iff.1 h
      exact ih h

/-- **The leftmost defect.** Reading the pieces of a line is rejected for the first defect of the
part that is being read and of what follows. -/
theorem rejection?_readPieces {total column : Nat} {quote : Option Nat}
    (hquote : quote = if Odd total then some column else none) {quotes : Nat}
    (even : Even quotes) {before : Option Operator} {part : Part} (behind : part.Behind before)
    {text : List Char} {pieces : List (Operator × List Char)}
    (paired : Paired total quotes text pieces) :
    rejection? before (readPieces quote part text pieces)
      = (part.defect column text ++ defectsFrom column before text pieces).head? := by
  induction pieces generalizing quotes before part text with
  | nil =>
    -- the last text holds the quote that is not closed, if there is one
    have hodd : Odd total ↔ Odd (text.count quoteMark) := by
      rw [← (show quotes + text.count quoteMark = total from paired), Nat.odd_add']
      simp [even]
    by_cases hopen : Odd (text.count quoteMark)
    · rw [hquote, if_pos (hodd.2 hopen)]
      show some (ParseError.unterminatedQuote column) = _
      cases part with
      | program =>
        have hstarts : startsProgram before = true := behind
        simp [Part.defect, defectsFrom, endDefect, hstarts, hopen]
      | target inner direction => simp [Part.defect, targetDefect, hopen]
    · rw [hquote, if_neg (mt hodd.1 hopen)]
      show rejection? before (part.finish text none) = _
      cases part with
      | program =>
        have hstarts : startsProgram before = true := behind
        obtain ⟨argv, hwords⟩ := exists_words_of_even (Nat.not_odd_iff_even.1 hopen)
        have hfinish : Part.program.finish text none = .ok (.exec argv) :=
          program_finish_iff.2 ⟨argv, hwords, by simp, rfl⟩
        simp only [hfinish, rejection?, Part.defect, defectsFrom, endDefect, hstarts, hopen,
          isWordless, hwords, Command.isEmpty_exec]
        split <;> simp_all
      | target inner direction =>
        obtain rfl : before = some (.redirect direction) := behind
        by_cases htarget : unquote (stripEnds isBlank text) = [] <;>
          simp [rejection?, Part.finish, redirectTarget_eq, Part.defect, targetDefect, defectsFrom,
            endDefect, startsProgram, hopen, htarget]
  | cons piece pieces ih =>
    obtain ⟨op, next⟩ := piece
    obtain ⟨heven, hpaired⟩ := paired
    have htext : Even (text.count quoteMark) := by
      rw [Nat.even_add] at heven
      exact heven.1 even
    rw [defectsFrom, ← List.append_assoc, ← List.append_assoc]
    rcases part.finish_defect behind htext column op with
      ⟨e, hfinish, hdefect⟩ | ⟨c, hfinish, hdefect⟩
    · -- the part that ends here has a defect
      rw [hdefect]
      cases op with
      | pipe =>
        show rejection? before ((part.finish text (some .pipe)).bind _) = _
        rw [hfinish]
        rfl
      | redirect direction =>
        show rejection? before ((part.finish text (some (.redirect direction))).bind _) = _
        rw [hfinish]
        rfl
    · rw [hdefect, List.nil_append]
      cases op with
      | pipe =>
        show rejection? before ((part.finish text (some .pipe)).bind _) = _
        rw [hfinish]
        show rejection? before ((readPieces quote .program next pieces).bind (pipeTo c)) = _
        have hnext : Part.program.Behind (some .pipe) := rfl
        rw [rejection?_pipeTo, ih heven hnext hpaired]
        rfl
      | redirect direction =>
        show rejection? before ((part.finish text (some (.redirect direction))).bind _) = _
        rw [hfinish]
        show rejection? before (readPieces quote (.target c direction) next pieces) = _
        have hnext : (Part.target c direction).Behind (some (.redirect direction)) := rfl
        rw [rejection?_of_nonempty (fun _ => readPieces_target_nonempty) before
          (some (.redirect direction)), ih heven hnext hpaired]
        rfl

/-! ### Lines -/

/-- The error of a line is its first defect, with the column of the open quote; without an open
quote any column will do. -/
theorem rejection?_ofLine_of_openQuote {line : String} {column : Nat}
    (hquote : openQuote none 0 line.toList
      = if Odd (line.toList.count quoteMark) then some column else none) :
    rejection? none (Command.ofLine line)
      = (defectsFrom column none (cutFrom 0 line.toList).1 (cutFrom 0 line.toList).2).head? := by
  have hstart : (none : Option Nat) = none ↔ Even 0 := by simp
  have hbehind : Part.program.Behind none := rfl
  have hpaired := cutFrom_paired 0 line.toList
  rw [Nat.zero_add] at hpaired
  have hread : Command.ofLine line = readPieces (openQuote none 0 line.toList) .program
      (cutFrom 0 line.toList).1 (cutFrom 0 line.toList).2 :=
    readFrom_eq_readPieces .program [] hstart 0 line.toList
  rw [hread, rejection?_readPieces hquote Even.zero hbehind hpaired]
  rfl

/-- The error of a line is its first defect. -/
theorem rejection?_ofLine (line : String) :
    rejection? none (Command.ofLine line) = (defectsOf line).head? :=
  rejection?_ofLine_of_openQuote (openQuote_eq line.toList)

/-- Where a quote is not closed, a text holds it, and it stands at the column. -/
theorem unterminatedQuote_mem_defectsFrom {column q : Nat} {before : Option Operator}
    {text : List Char} {pieces : List (Operator × List Char)}
    (h : .unterminatedQuote q ∈ defectsFrom column before text pieces) :
    q = column ∧ (quoteMark ∈ text ∨ ∃ piece ∈ pieces, quoteMark ∈ piece.2) := by
  have hmem : ∀ {t : List Char}, Odd (t.count quoteMark) → quoteMark ∈ t := by
    rintro t ⟨k, hk⟩
    exact List.count_pos_iff.1 (by omega)
  induction pieces generalizing before text with
  | nil =>
    simp only [defectsFrom, endDefect] at h
    split at h
    case isTrue =>
      split at h
      case isTrue hodd => exact ⟨by simpa using h, .inl (hmem hodd)⟩
      case isFalse => split at h <;> simp at h
    case isFalse => simp at h
  | cons piece pieces ih =>
    obtain ⟨op, next⟩ := piece
    simp only [defectsFrom, List.mem_append] at h
    rcases h with (hcommand | htarget) | hrest
    · rw [commandDefect] at hcommand
      split at hcommand <;> simp at hcommand
    · -- of the two operators only a redirect looks into the text behind it
      cases op with
      | pipe => simp [targetDefect] at htarget
      | redirect direction =>
        simp only [targetDefect] at htarget
        split at htarget
        case isTrue hodd =>
          exact ⟨by simpa using htarget, .inr ⟨_, List.mem_cons_self, hmem hodd⟩⟩
        case isFalse => split at htarget <;> simp at htarget
    · obtain ⟨hq, hnext | ⟨piece, hpiece, hmark⟩⟩ := ih hrest
      · exact ⟨hq, .inr ⟨_, List.mem_cons_self, hnext⟩⟩
      · exact ⟨hq, .inr ⟨piece, List.mem_cons_of_mem _ hpiece, hmark⟩⟩

/-- A text with a quote has a last one. -/
theorem exists_last_quote {cs : List Char} (h : quoteMark ∈ cs) :
    ∃ before after, cs = before ++ quoteMark :: after ∧ quoteMark ∉ after := by
  obtain ⟨after, before, heq, hafter⟩ := List.eq_append_cons_of_mem (List.mem_reverse.2 h)
  refine ⟨before.reverse, after.reverse, ?_, by simpa using hafter⟩
  rw [← List.reverse_reverse cs, heq]
  simp

/-- **Rejected lines.** A line is rejected for the leftmost of its defects, and only lines without
defects are read.  The column of a quote that is not closed is the number of characters before the
last quote of the line, and every line with an odd number of quotes is rejected. -/
theorem ofLine_error_iff_head (line : String) :
    (∀ e, Command.ofLine line = .error e ↔ (defectsOf line).head? = some e) ∧
      (∀ column, Command.ofLine line = .error (.unterminatedQuote column) →
        ∃ before after, line.toList = before ++ quoteMark :: after ∧ quoteMark ∉ after ∧
          column = before.length) ∧
      (Odd (line.toList.count quoteMark) → ∃ e, Command.ofLine line = .error e) := by
  have hfirst : ∀ e, Command.ofLine line = .error e ↔ (defectsOf line).head? = some e := by
    intro e
    rw [← rejection?_ofLine]
    cases Command.ofLine line <;> simp [rejection?]
  refine ⟨hfirst, fun column herror => ?_, fun hodd => ?_⟩
  · obtain ⟨rfl, hmark⟩ :=
      unterminatedQuote_mem_defectsFrom (List.mem_of_mem_head? ((hfirst _).1 herror))
    -- the text that holds the quote is a part of the line
    have hline : quoteMark ∈ line.toList := by
      rw [← join_cutFrom 0 line.toList, List.mem_append, List.mem_flatMap]
      exact hmark.imp_right fun ⟨piece, hpiece, h⟩ => ⟨piece, hpiece, List.mem_cons_of_mem _ h⟩
    obtain ⟨before, after, hsplit, hafter⟩ := exists_last_quote hline
    exact ⟨before, after, hsplit, hafter, by rw [hsplit, lastQuote_append hafter]⟩
  · have hopen : openQuote none 0 line.toList ≠ none := by
      rw [openQuote_eq, if_pos hodd]
      exact Option.some_ne_none _
    cases hread : Command.ofLine line with
    | error e => exact ⟨e, rfl⟩
    | ok t => exact absurd ((ofLine_iff line t).1 hread).1 hopen

/-- The pipe without a command before it comes first, the open quote behind it second. -/
example : defectsOf "ls > || \"é" =
    [.missingRedirectTarget .output, .missingCommand .pipe, .unterminatedQuote 8] := by
  decide +kernel

end LineShell
