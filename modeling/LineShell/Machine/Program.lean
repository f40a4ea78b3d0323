import LineShell.Config.Variables
import LineShell.Machine.Job

namespace LineShell

/-!
# Programs

A program turns its arguments into a job.

* `Surroundings`, `Program` — what a program is given besides its arguments, and programs.
* `say`, `complain`, `failWith` — writing a text, and ending with a message.
* `readInputs` — the contents of the files that arguments name.
-/

/-- What a program is given besides its arguments. -/
structure Surroundings where
  pid : Pid
  environment : Environment

/-- A program: what it does with its arguments. -/
abbrev Program := Surroundings → List String → Job

/-- Writes bytes to standard output. -/
def emit (bytes : Bytes) (next : Job) : Job :=
  .write standardOutput bytes next

/-- Writes a text to standard output. -/
def say (text : String) (next : Job) : Job :=
  emit (bytesOf text) next

/-- Writes a line to standard error. -/
def complain (text : String) (next : Job) : Job :=
  .write standardError (bytesOf (text ++ "\n")) next

/-- Writes a message to standard error and ends with code one. -/
def failWith (text : String) : Job :=
  complain text (.exit 1)

/-- The bytes of the file that a path leads to. -/
def readPath (tree : FileTree) (path : String) : Except Errno Bytes := do
  let id ← tree.resolve path
  if tree.isDirectory id then .error .eisdir else .ok (tree.content id)

/-- What a program says about a file that it cannot use. -/
def fileMessage (program path : String) (e : Errno) : String :=
  program ++ ": " ++ path ++ ": " ++ e.description

/-- What some programs say about a file that they cannot open. -/
def openMessage (program verb path : String) (e : Errno) : String :=
  program ++ ": " ++ verb ++ " '" ++ path ++ "' for reading: " ++ e.description

/-- Reads the inputs that operands name, where `-` is standard input, and goes on with the name
and contents of those that can be read; the code is one when another could not, which is told by
`message`. -/
def readInputs (message : String → Errno → String) (code : Int) (done : List (String × Bytes)) :
    List String → (Int → List (String × Bytes) → Job) → Job
  | [], next => next code done.reverse
  | "-" :: rest, next =>
    .gather []
      (fun e => complain (message "-" e) (readInputs message 1 done rest next))
      (fun bytes => readInputs message code (("-", bytes) :: done) rest next)
  | path :: rest, next =>
    .look fun tree =>
      match readPath tree path with
      | .ok bytes => readInputs message code ((path, bytes) :: done) rest next
      | .error e => complain (message path e) (readInputs message 1 done rest next)

/-- Reads the inputs that operands name, or standard input when there are none, as one. -/
def readAll (message : String → Errno → String) (operands : List String)
    (next : Int → Bytes → Job) : Job :=
  readInputs message 0 [] (if operands.isEmpty then ["-"] else operands) fun code inputs =>
    next code (inputs.flatMap (·.2))

/-- The options at the front of arguments, and the operands.  A lone `-` is an operand, and `--`
ends the options. -/
def splitOptions : List String → List String × List String
  | [] => ([], [])
  | "--" :: rest => ([], rest)
  | arg :: rest =>
    let (options, operands) := splitOptions rest
    if arg != "-" && arg.toList.head? == some '-' then (arg :: options, operands)
    else (options, arg :: operands)

/-- The letters of options written together or apart. -/
def optionLetters (options : List String) : List Char :=
  options.flatMap fun option => option.toList.drop 1

/-- A text put to the right of a field. -/
def padLeft (width : Nat) (s : String) : String :=
  String.ofList (List.replicate (width - s.length) ' ') ++ s

/-- The number that decimal digits give. -/
def natural? (s : List Char) : Option Nat :=
  if s.isEmpty || !s.all Char.isDigit then none
  else some (s.foldl (fun n c => n * 10 + (c.toNat - '0'.toNat)) 0)

/-- The whole number that a text gives, with a sign or without. -/
def number? (s : String) : Option Int :=
  match s.toList with
  | '+' :: digits => (natural? digits).map Int.ofNat
  | '-' :: digits => (natural? digits).map fun n => -Int.ofNat n
  | digits => (natural? digits).map Int.ofNat

end LineShell
