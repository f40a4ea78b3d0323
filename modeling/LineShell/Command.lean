namespace LineShell

/-!
# Commands

A line of input describes a tree of programs that are to run together.

* `Direction` — which standard stream a redirect rebinds.
* `Command` — the tree: a program with its arguments, two commands joined by a pipe, or a command
  with a stream bound to a file.
* `Command.isEmpty` — the command of a blank line.
* `Stage`, `Canonical` — the trees that lines can describe.
-/

/-- The standard stream that a redirect rebinds to a file. -/
inductive Direction where
  /-- Standard input is read from the file. -/
  | input
  /-- Standard output is written to the file. -/
  | output
  deriving DecidableEq

/-- The operator of a redirect. -/
def Direction.symbol : Direction → Char
  | .input => '<'
  | .output => '>'

/-- What is done with the file of a redirect. -/
def Direction.verb : Direction → String
  | .input => "reading"
  | .output => "writing"

/-- A tree of programs that run together. -/
inductive Command where
  /-- One program and its arguments. -/
  | exec (argv : List String)
  /-- Two commands; what the left one writes, the right one reads. -/
  | pipe (left right : Command)
  /-- A command with one standard stream bound to a file. -/
  | redirect (inner : Command) (direction : Direction) (path : String)
  deriving DecidableEq

namespace Command

/-- Whether this is the command of a blank line: a program without a name. -/
def isEmpty : Command → Bool
  | .exec argv => argv.isEmpty
  | _ => false

@[simp]
theorem isEmpty_exec (argv : List String) : (exec argv).isEmpty = argv.isEmpty := rfl

@[simp]
theorem isEmpty_pipe (l r : Command) : (pipe l r).isEmpty = false := rfl

@[simp]
theorem isEmpty_redirect (c : Command) (d : Direction) (p : String) :
    (redirect c d p).isEmpty = false := rfl

/-- Only the program without a name is empty. -/
theorem isEmpty_iff {c : Command} : c.isEmpty = true ↔ c = .exec [] := by
  cases c <;> simp

/-- Applies a function to the words of every program of the tree. -/
def mapArgv (f : List String → List String) : Command → Command
  | .exec argv => .exec (f argv)
  | .pipe l r => .pipe (l.mapArgv f) (r.mapArgv f)
  | .redirect c d p => .redirect (c.mapArgv f) d p

/-! ### The trees that lines describe -/

/-- A word or path that a line can give: not empty and without a quote. -/
def Sayable (s : String) : Prop :=
  s.toList ≠ [] ∧ '"' ∉ s.toList

/-- One part of a pipeline: a program with a name under any number of redirects. -/
inductive Stage : Command → Prop where
  | exec {argv : List String} (named : argv ≠ []) (words : ∀ w ∈ argv, Sayable w) :
      Stage (.exec argv)
  | redirect {c : Command} {d : Direction} {p : String} (inner : Stage c) (path : Sayable p) :
      Stage (.redirect c d p)

/-- Stages joined by pipes that nest to the right. -/
inductive Pipeline : Command → Prop where
  | stage {c : Command} (h : Stage c) : Pipeline c
  | pipe {l r : Command} (left : Stage l) (right : Pipeline r) : Pipeline (.pipe l r)

/-- The trees that lines describe: the empty command and the pipelines. -/
def Canonical (c : Command) : Prop :=
  c = .exec [] ∨ Pipeline c

end Command

end LineShell
