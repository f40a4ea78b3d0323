namespace LineShell

/-!
# Coloured text

A colour is put on a text by an escape sequence before it and the reset sequence behind it.  A
reset inside the text would end the colour early, so each one is followed by the opening sequence
again.

* `Colour` — the colours in use, with their numbers.
* `replaceAll` — every occurrence of a pattern replaced, from the left and without overlap.
* `Colour.paint` — a text in a colour, or the text as it is when colours are off.
-/

/-- The colours in use. -/
inductive Colour where
  | red
  | yellow
  | brightRed
  | brightYellow
  | brightBlue
  | brightPurple
  | brightCyan
  deriving DecidableEq

/-- The number of a colour in its escape sequence. -/
def Colour.code : Colour → String
  | .red => "31"
  | .yellow => "33"
  | .brightRed => "91"
  | .brightYellow => "93"
  | .brightBlue => "94"
  | .brightPurple => "95"
  | .brightCyan => "96"

/-- Replaces `pattern` wherever it begins, from the left; `skip` characters of an occurrence
already replaced are passed over first.  An empty pattern is never found. -/
def replaceAllFrom (pattern replacement : List Char) : Nat → List Char → List Char
  | _, [] => []
  | n + 1, _ :: cs => replaceAllFrom pattern replacement n cs
  | 0, c :: cs =>
    if !pattern.isEmpty && pattern.isPrefixOf (c :: cs) then
      replacement ++ replaceAllFrom pattern replacement (pattern.length - 1) cs
    else
      c :: replaceAllFrom pattern replacement 0 cs

/-- Every occurrence of `pattern` replaced, from the left and without overlap. -/
def replaceAll (pattern replacement : String) (s : String) : String :=
  String.ofList (replaceAllFrom pattern.toList replacement.toList 0 s.toList)

/-- The sequence that takes colours away. -/
def resetSequence : String := "\x1b[0m"

/-- The sequence that begins a colour. -/
def Colour.sequence (colour : Colour) : String :=
  "\x1b[" ++ colour.code ++ "m"

/-- A text in a colour; with colours off, the text itself. -/
def Colour.paint (colour : Colour) (on : Bool) (s : String) : String :=
  if on then
    colour.sequence ++ replaceAll resetSequence (resetSequence ++ colour.sequence) s
      ++ resetSequence
  else s

/-- Without colours a text stays as it is. -/
@[simp]
theorem Colour.paint_off (colour : Colour) (s : String) : colour.paint false s = s := rfl

end LineShell
