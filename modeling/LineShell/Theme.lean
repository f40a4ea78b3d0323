import LineShell.Text.Colour

namespace LineShell

/-!
# Themes

* `Theme` — the messages of the shell and the colours of what it prints.
* `Theme.named` — the theme of a name.
* `Theme.errorText`, … — what is printed, with colours on or off.
-/

/-- The messages of the shell and the colours of what it prints. -/
structure Theme where
  welcome : String
  farewell : String
  interrupted : String
  welcomeColour : Colour
  farewellColour : Colour
  promptColour : Colour
  errorColour : Colour
  warningColour : Colour
  deriving DecidableEq

namespace Theme

/-- The theme that is used unless another is known by its name. -/
def standard : Theme where
  welcome := "Welcome to forksh. Type `quit` to leave."
  farewell := "Bye from forksh."
  interrupted := "^C (type `quit` to leave)"
  welcomeColour := .brightCyan
  farewellColour := .brightBlue
  promptColour := .brightCyan
  errorColour := .brightRed
  warningColour := .yellow

/-- The theme for dark terminals. -/
def dark : Theme where
  welcome := "forksh ready."
  farewell := "forksh out."
  interrupted := "^C"
  welcomeColour := .brightPurple
  farewellColour := .brightPurple
  promptColour := .brightPurple
  errorColour := .red
  warningColour := .brightYellow

/-- The theme of a name. -/
def named (name : String) : Theme :=
  if name = "dark" then dark else standard

/-- The sign before an error. -/
def errorSymbol (colours : Bool) : String :=
  Colour.red.paint colours "✗"

/-- The greeting. -/
def welcomeText (theme : Theme) (colours : Bool) : String :=
  theme.welcomeColour.paint colours theme.welcome

/-- The farewell. -/
def farewellText (theme : Theme) (colours : Bool) : String :=
  theme.farewellColour.paint colours theme.farewell

/-- A prompt. -/
def promptText (theme : Theme) (colours : Bool) (text : String) : String :=
  theme.promptColour.paint colours text

/-- An error. -/
def errorText (theme : Theme) (colours : Bool) (text : String) : String :=
  theme.errorColour.paint colours text

/-- A warning. -/
def warningText (theme : Theme) (colours : Bool) (text : String) : String :=
  theme.warningColour.paint colours text

end Theme

end LineShell
