import LineShell.Machine.Program.Filter
import LineShell.Machine.Program.Script

namespace LineShell

/-!
# The programs of a machine

* `simplePrograms` — the programs by name, but for those that run others.
* `program?` — the program of a name.
-/

/-- Waits for nothing. -/
def sleepProgram : Program := fun _ _ => .exit 0

/-- Writes the environment. -/
def printenvProgram : Program := fun s args =>
  match args with
  | [] => say (String.join (s.environment.map fun (k, v) => k ++ "=" ++ v ++ "\n")) (.exit 0)
  | names =>
    let values := names.map fun name => s.environment.lookup name
    say (String.join (values.map fun v => (v.map (· ++ "\n")).getD ""))
      (.exit (if values.all (·.isSome) then 0 else 1))

/-- The programs by name, but for those that run others. -/
def simplePrograms : List (String × Program) :=
  [("echo", echoProgram), ("printf", printfProgram), ("seq", seqProgram), ("yes", yesProgram),
    ("true", trueProgram), ("false", falseProgram), ("cat", catProgram), ("head", headProgram),
    ("tail", tailProgram), ("tac", tacProgram), ("nl", nlProgram), ("wc", wcProgram),
    ("sort", sortProgram), ("uniq", uniqProgram), ("tr", trProgram), ("cut", cutProgram),
    ("pwd", pwdProgram), ("ls", lsProgram), ("touch", touchProgram), ("chmod", chmodProgram),
    ("mkdir", mkdirProgram),
    ("rm", rmProgram), ("rmdir", rmdirProgram), ("cp", cpProgram), ("mv", mvProgram),
    ("tee", teeProgram), ("basename", basenameProgram), ("dirname", dirnameProgram),
    ("test", testProgram), ("[", bracketProgram), ("sleep", sleepProgram),
    ("printenv", printenvProgram)]

/-- Runs a program in a changed environment, or writes the environment. -/
def envProgram (find : String → Option Program) : Program := fun s args =>
  let assigned := (args.takeWhile fun a => (scriptAssignment? a).isSome).filterMap
    scriptAssignment?
  let s := { s with environment := assigned.reverse ++ s.environment }
  match args.dropWhile fun a => (scriptAssignment? a).isSome with
  | [] => printenvProgram s []
  | name :: args =>
    match find name with
    | some program => program s args
    | none =>
      complain ("env: '" ++ name ++ "': " ++ Errno.enoent.description) (.exit 127)

/-- The program of a name, where programs run others to a depth. -/
def programWithin? : Nat → String → Option Program
  | 0, name => simplePrograms.lookup name
  | depth + 1, name =>
    match name with
    | "sh" | "dash" => some (scriptProgram (programWithin? depth))
    | "env" => some (envProgram (programWithin? depth))
    | _ => simplePrograms.lookup name

/-- How deep programs run others. -/
def programDepth : Nat := 8

/-- The program of a name. -/
def program? (name : String) : Option Program :=
  programWithin? programDepth name

end LineShell
