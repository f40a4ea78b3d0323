import LineShell.Machine.Boot

namespace LineShell

/-!
# The command line

The program reads standard input to its end, runs the shell over it on a machine in memory, and
writes what the shell wrote.
-/

/-- The variables of the surroundings that the shell looks at. -/
def watchedVariables : List String :=
  ["HOME", "USER", "TERM", "NO_COLOR", "CLICOLOR_FORCE", "FORKSH_HOME", "FORKSH_THEME",
    "FORKSH_EDITOR", "FORKSH_HISTORY", "FORKSH_LOG_LEVEL", "FORKSH_LOG_DIR", "FORKSH_LOG_STDERR",
    "FORKSH_ALIASES"]

/-- The variables that have a value. -/
def readEnvironment : IO Environment := do
  let values ← watchedVariables.mapM fun name => do return (name, ← IO.getEnv name)
  return values.filterMap fun (name, value) => value.map (name, ·)

/-- Writes parts, the latest of which comes first. -/
def writeParts (stream : IO.FS.Stream) (parts : List Bytes) : IO Unit := do
  stream.write ⟨parts.reverse.flatten.toArray⟩
  stream.flush

end LineShell

open LineShell in
/-- Runs the shell over standard input. -/
def main : IO UInt32 := do
  let input ← (← IO.getStdin).readBinToEnd
  let environment ← readEnvironment
  let home := (environment.lookup "HOME").getD "/"
  let tree := FileTree.standard.addDirectory home
  let tree := (tree.changeDirectory home).toOption.getD tree
  let machine : Machine :=
    { tree := tree, source := .ofBytes input.toList, environment := environment,
      user := (environment.lookup "USER").getD "?" }
  let (code, machine) := machine.boot
  writeParts (← IO.getStdout) machine.output
  writeParts (← IO.getStderr) machine.errors
  return code.toNat.toUInt32
