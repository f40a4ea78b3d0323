namespace LineShell

/-!
# Levels of log records

* `Level` — how serious a record is.
* `Level.ofText` — the level that a configuration names.
* `Level.admits` — whether a log kept at a level takes a record.
-/

/-- How serious a record is. -/
inductive Level where
  | error
  | warn
  | info
  | debug
  | trace
  deriving DecidableEq

namespace Level

/-- The name of a level. -/
def name : Level → String
  | .error => "ERROR"
  | .warn => "WARN"
  | .info => "INFO"
  | .debug => "DEBUG"
  | .trace => "TRACE"

/-- The levels from the most serious one on. -/
def all : List Level := [.error, .warn, .info, .debug, .trace]

/-- The level whose name a text is, whatever the case of its ASCII letters; any other text means
`info`. -/
def ofText (text : String) : Level :=
  (all.find? fun l => l.name.toList == text.toList.map Char.toUpper).getD .info

/-- The place of a level among all, counted from the most serious one. -/
def rank : Level → Nat
  | .error => 1
  | .warn => 2
  | .info => 3
  | .debug => 4
  | .trace => 5

/-- Whether a log kept at the level `limit` takes a record of the level `l`. -/
def admits (limit l : Level) : Bool :=
  l.rank ≤ limit.rank

end Level

end LineShell
