namespace LineShell

/-!
# The words of an alias

The text behind an alias is cut into words by the quoting rules of the standard shell: single
quotes keep everything, double quotes leave the backslash its power over four characters and the
line feed, and a backslash outside quotes takes the next character as it stands.  A `#` at the
start of a word begins a comment.

* `SplitState` — where in a word the reader is.
* `expansionWords?` — the words of a text; `none` when a quote is not closed.
-/

/-- Where the reader of an alias text is. -/
inductive SplitState where
  /-- Between words. -/
  | gap
  /-- In a word, outside quotes. -/
  | bare
  /-- Behind a backslash that stands between words. -/
  | gapEscape
  /-- Behind a backslash in a word. -/
  | bareEscape
  /-- Between single quotes. -/
  | single
  /-- Between double quotes. -/
  | double
  /-- Behind a backslash between double quotes. -/
  | doubleEscape
  /-- In a comment. -/
  | comment
  deriving DecidableEq

/-- Whether a character separates the words of an alias. -/
def isAliasBlank (c : Char) : Bool :=
  c == '\t' || c == ' ' || c == '\n'

/-- Whether a backslash between double quotes escapes a character. -/
def isEscapable (c : Char) : Bool :=
  c == '$' || c == '\x60' || c == '"' || c == '\\'

/-- The words of the rest of a text, where `word` holds the current word in reverse. -/
def splitFrom (state : SplitState) (word : List Char) : List Char → Option (List String)
  | [] =>
    match state with
    | .gap | .comment => some []
    | .bare => some [String.ofList word.reverse]
    | .gapEscape | .bareEscape => some [String.ofList ('\\' :: word).reverse]
    | .single | .double | .doubleEscape => none
  | c :: cs =>
    match state with
    | .gap =>
      if c = '\'' then splitFrom .single word cs
      else if c = '"' then splitFrom .double word cs
      else if c = '\\' then splitFrom .gapEscape word cs
      else if isAliasBlank c then splitFrom .gap word cs
      else if c = '#' then splitFrom .comment word cs
      else splitFrom .bare (c :: word) cs
    | .gapEscape =>
      if c = '\n' then splitFrom .gap word cs else splitFrom .bare (c :: word) cs
    | .bare =>
      if c = '\'' then splitFrom .single word cs
      else if c = '"' then splitFrom .double word cs
      else if c = '\\' then splitFrom .bareEscape word cs
      else if isAliasBlank c then
        (splitFrom .gap [] cs).map (String.ofList word.reverse :: ·)
      else splitFrom .bare (c :: word) cs
    | .bareEscape =>
      if c = '\n' then splitFrom .bare word cs else splitFrom .bare (c :: word) cs
    | .single =>
      if c = '\'' then splitFrom .bare word cs else splitFrom .single (c :: word) cs
    | .double =>
      if c = '"' then splitFrom .bare word cs
      else if c = '\\' then splitFrom .doubleEscape word cs
      else splitFrom .double (c :: word) cs
    | .doubleEscape =>
      if c = '\n' then splitFrom .double word cs
      else if isEscapable c then splitFrom .double (c :: word) cs
      else splitFrom .double (c :: '\\' :: word) cs
    | .comment =>
      if c = '\n' then splitFrom .gap word cs else splitFrom .comment word cs

/-- The words of the text behind an alias; `none` when a quote is not closed. -/
def expansionWords? (text : String) : Option (List String) :=
  splitFrom .gap [] text.toList

/-- The wording for a text whose quotes are not closed. -/
def unclosedExpansion : String := "missing closing quote"

end LineShell
