namespace LineShell

/-!
# Blank characters

Two classes of blanks are in play.  A command line is cut at its own four blanks; text that is
judged "blank" for a person (alias names, arguments, configuration flags) is judged by the
Unicode property `White_Space`.

* `isBlank` — the four blanks of a command line.
* `isSpace` — the Unicode property.
* `trimBlanks`, `trimSpaces` — a text without the blanks of either class at its ends.
-/

/-- The blanks that separate the words of a line: space, tab, carriage return, line feed. -/
def isBlank (c : Char) : Bool :=
  c == ' ' || c == '\t' || c == '\r' || c == '\n'

/-- The Unicode property `White_Space`. -/
def isSpace (c : Char) : Bool :=
  let n := c.toNat
  (0x09 ≤ n && n ≤ 0x0D) || n == 0x20 || n == 0x85 || n == 0xA0 || n == 0x1680 ||
    (0x2000 ≤ n && n ≤ 0x200A) || n == 0x2028 || n == 0x2029 || n == 0x202F ||
    n == 0x205F || n == 0x3000

/-- Every blank of a line is a Unicode space. -/
theorem isSpace_of_isBlank {c : Char} (h : isBlank c = true) : isSpace c = true := by
  simp only [isBlank, Bool.or_eq_true, beq_iff_eq] at h
  rcases h with ((rfl | rfl) | rfl) | rfl <;> decide

/-- Drops the characters of a class from both ends. -/
def stripEnds (p : Char → Bool) (cs : List Char) : List Char :=
  ((cs.dropWhile p).reverse.dropWhile p).reverse

/-- A text without the line blanks at its ends. -/
def trimBlanks (s : String) : String :=
  String.ofList (stripEnds isBlank s.toList)

/-- A text without the Unicode spaces at its ends. -/
def trimSpaces (s : String) : String :=
  String.ofList (stripEnds isSpace s.toList)

/-- Whether a text holds nothing but Unicode spaces. -/
def isAllSpaces (s : String) : Bool :=
  s.toList.all isSpace

end LineShell
