namespace LineShell

/-!
# Byte offsets and columns

A place in a text is given either by the number of UTF-8 bytes before it or by the number of
characters before it.  A byte offset names a place only when it does not fall past the end or
inside a character, so each function that takes one is partial in the sense of `Option`.

* `byteSize` — the number of bytes of a text.
* `afterBytes?`, `beforeBytes?` — the text behind a byte offset, and the text before it.
* `slice?` — the text between two byte offsets.
* `column?` — the number of characters before a byte offset.
* `byteOffset?` — the byte offset of the first occurrence of a character.
* `closingQuote?` — the byte offset of the quote that closes a run opened at an offset.
-/

/-- The quote character of a command line. -/
def quoteMark : Char := '"'

/-- The number of bytes of a text. -/
def byteSize : List Char → Nat
  | [] => 0
  | c :: cs => c.utf8Size + byteSize cs

/-- The characters behind the first `n` bytes; `none` past the end or inside a character. -/
def afterBytes? : List Char → Nat → Option (List Char)
  | cs, 0 => some cs
  | [], _ + 1 => none
  | c :: cs, n + 1 =>
    if c.utf8Size ≤ n + 1 then afterBytes? cs (n + 1 - c.utf8Size) else none

/-- The characters of the first `n` bytes; `none` past the end or inside a character. -/
def beforeBytes? : List Char → Nat → Option (List Char)
  | _, 0 => some []
  | [], _ + 1 => none
  | c :: cs, n + 1 =>
    if c.utf8Size ≤ n + 1 then (beforeBytes? cs (n + 1 - c.utf8Size)).map (c :: ·) else none

/-- The characters from one byte offset to another; `none` also when the first is behind the
second. -/
def slice? (cs : List Char) (start stop : Nat) : Option (List Char) :=
  if start ≤ stop then (afterBytes? cs start).bind (beforeBytes? · (stop - start)) else none

/-- The number of characters before the byte offset `n`. -/
def column? (cs : List Char) (n : Nat) : Option Nat :=
  (afterBytes? cs n).map fun rest => cs.length - rest.length

/-- How many bytes stand before the first occurrence of a character, if there is one. -/
def byteOffset? (mark : Char) : List Char → Option Nat
  | [] => none
  | c :: cs => if c = mark then some 0 else (byteOffset? mark cs).map (· + c.utf8Size)

/-- The byte offset of the quote that closes the run whose quote stands at the byte offset
`start`.  The outer `none` says that the place behind that quote is no place of the text, the
inner one that the run is not closed. -/
def closingQuote? (cs : List Char) (start : Nat) : Option (Option Nat) :=
  (afterBytes? cs (start + quoteMark.utf8Size)).map fun rest =>
    (byteOffset? quoteMark rest).map (· + (start + quoteMark.utf8Size))

@[simp]
theorem afterBytes?_zero (cs : List Char) : afterBytes? cs 0 = some cs := by
  cases cs <;> rfl

@[simp]
theorem column?_zero (cs : List Char) : column? cs 0 = some 0 := by
  simp [column?]

end LineShell
