import LineShell.Text.Blank

namespace LineShell

/-!
# Files of variables

A file of variables gives one variable a line, as a name, an equals sign and a value.  Blank lines
and comments are passed over, a name may follow the word `export`, and a value may be quoted and
may refer to other variables.

* `ValueState` — where in a value the reader is.
* `readValue?` — the value of the text behind an equals sign.
* `readVariable?` — the variable of a line.
* `withVariables` — an environment with the variables of a file.
-/

/-- An environment: names and their values. -/
abbrev Environment := List (String × String)

/-- Where in a value the reader is. -/
inductive ValueState where
  /-- Outside quotes. -/
  | bare
  /-- Behind a backslash; the state to return to. -/
  | escaped (quoted : Bool)
  /-- Between single quotes. -/
  | single
  /-- Between double quotes. -/
  | double
  /-- In the name of a variable behind a dollar sign. -/
  | reference (quoted : Bool) (name : List Char)
  /-- In the name of a variable between braces. -/
  | braced (quoted : Bool) (name : List Char)
  /-- Behind the value, where only a comment may follow. -/
  | done

/-- The state outside or between double quotes. -/
def ValueState.resume (quoted : Bool) : ValueState :=
  if quoted then .double else .bare

/-- The characters that a backslash may stand before, with what they then mean. -/
def escapedValue? (c : Char) : Option Char :=
  if c = '\\' ∨ c = '\x27' ∨ c = '"' ∨ c = '$' ∨ c = ' ' then some c
  else if c = 'n' then some '\n'
  else none

/-- Whether a character belongs to the name of a variable in a value. -/
def isNameChar (c : Char) : Bool :=
  c.isAlphanum

/-- Reads on in a value, where `out` holds what was read in reverse; `none` when the line is
bad.  The value of a variable is that of `value`, empty where it has none. -/
def readValueFrom (value : String → String) (state : ValueState) (out : List Char) :
    List Char → Option (List Char)
  | [] =>
    match state with
    | .single | .double | .braced _ _ | .escaped true | .reference true _ => none
    | .reference false name =>
      some (out.reverse ++ (value (String.ofList name.reverse)).toList)
    | .bare | .done | .escaped false => some out.reverse
  | c :: cs =>
    let expanded (name : List Char) : List Char :=
      (value (String.ofList name.reverse)).toList.reverse ++ out
    match state with
    | .done =>
      if c = ' ' ∨ c = '\t' then readValueFrom value .done out cs
      else if c = '#' then some out.reverse
      else none
    | .escaped quoted =>
      match escapedValue? c with
      | some plain => readValueFrom value (.resume quoted) (plain :: out) cs
      | none => none
    | .single =>
      if c = '\x27' then readValueFrom value .bare out cs
      else readValueFrom value .single (c :: out) cs
    | .reference quoted name =>
      if isNameChar c then readValueFrom value (.reference quoted (c :: name)) out cs
      else if c = '\x7b' ∧ name = [] then readValueFrom value (.braced quoted []) out cs
      else if c = '$' then readValueFrom value (.reference quoted []) (expanded name) cs
      else readValueFrom value (.resume quoted) (c :: expanded name) cs
    | .braced quoted name =>
      if c = '\x7d' then readValueFrom value (.resume quoted) (expanded name) cs
      else readValueFrom value (.braced quoted (c :: name)) out cs
    | .double =>
      if c = '$' then readValueFrom value (.reference true []) out cs
      else if c = '"' then readValueFrom value .bare out cs
      else if c = '\\' then readValueFrom value (.escaped true) out cs
      else readValueFrom value .double (c :: out) cs
    | .bare =>
      if c = '$' then readValueFrom value (.reference false []) out cs
      else if c = '\x27' then readValueFrom value .single out cs
      else if c = '"' then readValueFrom value .double out cs
      else if c = '\\' then readValueFrom value (.escaped false) out cs
      else if c = ' ' ∨ c = '\t' then readValueFrom value .done out cs
      else readValueFrom value .bare (c :: out) cs

/-- The value of the text behind an equals sign; `none` when the line is bad. -/
def readValue? (value : String → String) (text : List Char) : Option String :=
  (readValueFrom value .bare [] text).map String.ofList

/-! ### Lines -/

/-- Whether a character can begin the name of a variable. -/
def isNameStart (c : Char) : Bool :=
  c.isAlpha || c == '_'

/-- Whether a character can go on in the name of a variable. -/
def isNameRest (c : Char) : Bool :=
  c.isAlphanum || c == '_' || c == '.'

/-- The name at the start of a text and the text behind it and its blanks. -/
def readName? (text : List Char) : Option (String × List Char) :=
  match text with
  | c :: _ =>
    if isNameStart c then
      let (name, rest) := text.span isNameRest
      some (String.ofList name, rest.dropWhile isSpace)
    else none
  | [] => none

/-- The text behind an equals sign. -/
def afterEquals? : List Char → Option (List Char)
  | '=' :: rest => some rest
  | _ => none

/-- The name that a line gives a value and the text of that value.  The word `export` is a name
only when an equals sign follows it. -/
def readAssignment? (text : List Char) : Option (String × List Char) := do
  let (name, rest) ← readName? text
  if name = "export" then
    match afterEquals? rest with
    | some value => some (name, value)
    | none => do
      let (name, rest) ← readName? rest
      let value ← afterEquals? rest
      some (name, value)
  else do
    let value ← afterEquals? rest
    some (name, value)

/-- The variable of a line: none when the line is blank or a comment.  The outer `none` says that
the line is bad. -/
def readVariable? (value : String → String) (line : List Char) :
    Option (Option (String × String)) :=
  let text := stripEnds isSpace line
  if text.isEmpty || text.head? == some '#' then some none
  else do
    let (name, rest) ← readAssignment? text
    let rest := rest.dropWhile isSpace
    if rest.isEmpty || rest.head? == some '#' then some (some (name, ""))
    else do
      let v ← readValue? value rest
      some (some (name, v))

/-- An environment with the variables of lines, up to the first bad line.  A variable that has a
value keeps it; `seen` holds the variables of the lines before, which later lines may refer to. -/
def withVariables (environment : Environment) (seen : Environment) :
    List (List Char) → Environment
  | [] => environment
  | line :: rest =>
    let value (name : String) : String :=
      ((environment.lookup name).or (seen.lookup name)).getD ""
    match readVariable? value line with
    | none => environment
    | some none => withVariables environment seen rest
    | some (some (name, v)) =>
      let environment :=
        if (environment.lookup name).isSome then environment else (name, v) :: environment
      withVariables environment ((name, v) :: seen) rest

end LineShell
