import LineShell.Text.Unseen

namespace LineShell

/-!
# Texts quoted for a log

A log shows a text between double quotes, so that blanks at its ends and characters that are not
seen can be told apart.

* `quoteChar` — how one character is written between the quotes.
* `quoteText` — a text between quotes.
* `quoteList` — a list of texts in brackets.
-/

/-- The hexadecimal digits of a number, in lower case and without leading zeros. -/
def hexDigits (n : Nat) : String :=
  String.ofList (Nat.toDigits 16 n)

/-- One character as it stands between the quotes: the quote and the backslash are escaped by a
backslash, four controls have a letter, and other unseen characters are written by their code. -/
def quoteChar (c : Char) : String :=
  match c with
  | '"' => "\\\""
  | '\\' => "\\\\"
  | '\t' => "\\t"
  | '\n' => "\\n"
  | '\r' => "\\r"
  | '\x00' => "\\0"
  | c => if isUnseen c then "\\u\x7b" ++ hexDigits c.toNat ++ "\x7d" else c.toString

/-- A text between double quotes. -/
def quoteText (s : String) : String :=
  "\"" ++ String.join (s.toList.map quoteChar) ++ "\""

/-- A list of texts, each quoted, in brackets and separated by commas. -/
def quoteList (ss : List String) : String :=
  "[" ++ ", ".intercalate (ss.map quoteText) ++ "]"

end LineShell
