import LineShell.Command
import LineShell.Text.Blank
import LineShell.Text.Quoted

namespace LineShell

/-!
# Commands as text

* `Command.render` — the line that describes a command.
* `Command.describe` — the tree spelt out, for the log.
-/

/-- Whether a word would be read back as something else when it stood bare in a line. -/
def needsQuotes (word : String) : Bool :=
  word.toList.isEmpty || word.toList.any fun c => isSpace c || c == '|' || c == '<' || c == '>'

/-- A word as it stands in a line. -/
def renderWord (word : String) : String :=
  if needsQuotes word then "\"" ++ word ++ "\"" else word

/-- The operator of a redirect as a text. -/
def Direction.text (d : Direction) : String :=
  d.symbol.toString

/-- The name of a direction in a tree spelt out. -/
def Direction.label : Direction → String
  | .input => "In"
  | .output => "Out"

namespace Command

/-- The line that describes a command. -/
def render : Command → String
  | .exec argv => " ".intercalate (argv.map renderWord)
  | .pipe l r => l.render ++ " | " ++ r.render
  | .redirect c d p => c.render ++ " " ++ d.text ++ " " ++ renderWord p

/-- The tree of a command spelt out. -/
def describe : Command → String
  | .exec argv => "Exec \x7b argv: " ++ quoteList argv ++ " \x7d"
  | .pipe l r => "Pipe \x7b left: " ++ l.describe ++ ", right: " ++ r.describe ++ " \x7d"
  | .redirect c d p =>
    "Redirect \x7b inner: " ++ c.describe ++ ", direction: " ++ d.label ++ ", path: "
      ++ quoteText p ++ " \x7d"

end Command

end LineShell
