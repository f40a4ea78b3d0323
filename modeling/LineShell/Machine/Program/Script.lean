import LineShell.Machine.Program.Files
import LineShell.Machine.Program.Output

namespace LineShell

/-!
# Scripts

The program `sh` runs a script that it is given as an argument: simple commands joined by `;`,
`&&` and `||`, with quotes, variables and redirects of output.

* `ScriptPiece`, `ScriptToken`, `tokensOf?` — a script cut into tokens.
* `ScriptCommand`, `commandsOf?` — its commands.
* `killJob` — a script that kills itself.
* `scriptProgram` — the program.
-/

/-! ### Tokens -/

/-- A part of a word. -/
inductive ScriptPiece where
  | text (c : Char)
  /-- The value of a variable. -/
  | variable (name : String)

/-- A token of a script. -/
inductive ScriptToken where
  | word (pieces : List ScriptPiece)
  | operator (symbol : String)

/-- The variable behind a dollar sign, and the text behind it. -/
def scriptVariable (cs : List Char) : Option (String × List Char) :=
  match cs with
  | '\x7b' :: rest =>
    let name := rest.takeWhile (· != '\x7d')
    some (String.ofList name, rest.drop (name.length + 1))
  | c :: rest =>
    if c = '$' ∨ c = '?' ∨ c = '#' ∨ c.isDigit then some (c.toString, rest)
    else if isNameStart c then
      let name := cs.takeWhile fun c => c.isAlphanum || c == '_'
      some (String.ofList name, cs.drop name.length)
    else none
  | [] => none

/-- The operator at the front of a text. -/
def scriptOperator? (cs : List Char) : Option (String × List Char) :=
  (["2>&1", "1>&2", ">&2", "2>>", "2>", "1>", ">>", "&&", "||", ">", "<", ";", "|", "&", "\n"].find?
    fun op => op.toList.isPrefixOf cs).map fun op => (op, cs.drop op.length)

/-- The tokens before, in reverse, with the word that ends here put to them. -/
def endsWord (word : Option (List ScriptPiece)) (done : List ScriptToken) : List ScriptToken :=
  match word with
  | some pieces => .word pieces.reverse :: done
  | none => done

/-- The tokens of the rest of a script; `word` is the current word in reverse, `quote` the quote
that is open, and `done` the tokens before, in reverse.  The answer is `none` when a quote is not
closed. -/
def scriptTokens (word : Option (List ScriptPiece)) (quote : Option Char)
    (done : List ScriptToken) : Nat → List Char → Option (List ScriptToken)
  | 0, _ => none
  | _, [] => if quote.isSome then none else some (endsWord word done).reverse
  | fuel + 1, c :: cs =>
    let add (piece : ScriptPiece) : Option (List ScriptPiece) := some (piece :: word.getD [])
    if quote = some '\x27' then
      if c = '\x27' then scriptTokens word none done fuel cs
      else scriptTokens (add (.text c)) quote done fuel cs
    else if c = '$' then
      match scriptVariable cs with
      | some (name, rest) => scriptTokens (add (.variable name)) quote done fuel rest
      | none => scriptTokens (add (.text c)) quote done fuel cs
    else if c = '\\' then
      match cs with
      | d :: rest =>
        if quote = none ∨ d = '"' ∨ d = '\\' ∨ d = '$' then
          scriptTokens (add (.text d)) quote done fuel rest
        else scriptTokens (add (.text c)) quote done fuel cs
      | [] => scriptTokens (add (.text c)) quote done fuel cs
    else if quote = some '"' then
      if c = '"' then scriptTokens word none done fuel cs
      else scriptTokens (add (.text c)) quote done fuel cs
    else if c = '\x27' ∨ c = '"' then
      scriptTokens (some (word.getD [])) (some c) done fuel cs
    else if c = ' ' ∨ c = '\t' then scriptTokens none none (endsWord word done) fuel cs
    else if c = '#' ∧ word.isNone then
      scriptTokens none none done fuel (cs.dropWhile (· != '\n'))
    else if c.isDigit ∧ word.isSome then scriptTokens (add (.text c)) none done fuel cs
    else
      match scriptOperator? (c :: cs) with
      | some (op, rest) =>
        scriptTokens none none (.operator op :: endsWord word done) fuel rest
      | none => scriptTokens (add (.text c)) none done fuel cs

/-- The tokens of a script; `none` when a quote is not closed. -/
def tokensOf? (script : String) : Option (List ScriptToken) :=
  scriptTokens none none [] (script.length + 1) script.toList

/-! ### Commands -/

/-- When a command of a script is run. -/
inductive ScriptJoin where
  | always
  /-- Only if the command before ended well. -/
  | onSuccess
  /-- Only if the command before ended badly. -/
  | onFailure
  deriving DecidableEq

/-- A command of a script. -/
structure ScriptCommand where
  join : ScriptJoin := .always
  words : List (List ScriptPiece) := []
  /-- Operators that rebind output, with the words behind them. -/
  redirects : List (String × List ScriptPiece) := []

/-- The commands of tokens, where `current` is the one being read, its lists in reverse. -/
def scriptCommands (current : ScriptCommand) : List ScriptToken → List ScriptCommand
  | [] => [current]
  | .word w :: rest => scriptCommands { current with words := w :: current.words } rest
  | .operator "&&" :: rest => current :: scriptCommands { join := .onSuccess } rest
  | .operator "||" :: rest => current :: scriptCommands { join := .onFailure } rest
  | .operator op :: rest =>
    if op = "2>&1" ∨ op = "1>&2" ∨ op = ">&2" then
      scriptCommands { current with redirects := (op, []) :: current.redirects } rest
    else if op = ";" ∨ op = "\n" ∨ op = "&" ∨ op = "|" then current :: scriptCommands {} rest
    else
      match rest with
      | .word w :: rest =>
        scriptCommands { current with redirects := (op, w) :: current.redirects } rest
      | rest => scriptCommands current rest

/-- The commands of a script; `none` when a quote is not closed. -/
def commandsOf? (script : String) : Option (List ScriptCommand) :=
  (tokensOf? script).map fun tokens =>
    ((scriptCommands {} tokens).map fun c =>
      { c with words := c.words.reverse, redirects := c.redirects.reverse }).filter
        fun c => !c.words.isEmpty

/-- What a script says about itself, under the name it was given. -/
def scriptMessage (s : Surroundings) (text : String) : String :=
  (s.environment.lookup "0").getD "sh" ++ ": 1: " ++ text

/-- A word with the values of its variables, where `code` is how the last command ended. -/
def expandPieces (s : Surroundings) (code : Int) (pieces : List ScriptPiece) : String :=
  String.join <| pieces.map fun
    | .text c => c.toString
    | .variable "$" => toString s.pid
    | .variable "?" => toString code
    | .variable "#" => "0"
    | .variable name => (s.environment.lookup name).getD ""

/-! ### Running -/

/-- The signals that do not end a process. -/
def harmlessSignals : List Nat := [17, 18, 19, 20, 21, 22, 23, 28]

/-- The signal that a text names. -/
def signalNamed? (text : String) : Option Signal :=
  match natural? text.toList with
  | some n => some ⟨n⟩
  | none =>
    Signal.ofShortName? (if "SIG".toList.isPrefixOf text.toList
      then String.ofList (text.toList.drop 3) else text)

/-- Sends a signal to a process, which is the script itself or nobody. -/
def killJob (s : Surroundings) (signal : Signal) (target : String) : Job :=
  if number? target = some s.pid then
    if signal.number = 0 ∨ signal.number ∈ harmlessSignals then .exit 0 else .killed signal
  else failWith (scriptMessage s "kill: No such process")

/-- Does what the arguments of `kill` ask. -/
def killCommand (s : Surroundings) (args : List String) : Job :=
  let send (name target : String) : Job :=
    match signalNamed? name with
    | some signal => killJob s signal target
    | none =>
      complain
        (scriptMessage s ("kill: Illegal option -" ++ String.ofList (name.toList.take 1)))
        (.exit 2)
  match args with
  | ["-s", name, target] => send name target
  | [option, target] =>
    match option.toList with
    | '-' :: name => send (String.ofList name) target
    | _ => send "TERM" option
  | [target] => send "TERM" target
  | _ =>
    complain
      (scriptMessage s ("kill: Usage: kill [-s sigspec | -signum | -sigspec] [pid | job]... or\n"
        ++ "kill -l [exitstatus]"))
      (.exit 2)

/-- Adds bytes to the file that a path leads to. -/
def appendTo (path : String) (bytes : Bytes) (tree : FileTree) : FileTree :=
  match tree.openForAppending path with
  | .ok (id, tree) => tree.setContent id (tree.content id ++ bytes)
  | .error _ => tree

/-- Empties the file that a path leads to. -/
def emptyFile (path : String) (tree : FileTree) : FileTree :=
  match tree.openForWriting path with
  | .ok opened => opened.2
  | .error _ => tree

/-- A job with one redirect of its output. -/
def redirectJob (op path : String) (job : Job) : Job :=
  let source : Descriptor := if op.toList.head? = some '2' then standardError else standardOutput
  if op = "2>&1" then job.onWrite fun t bytes next => .write (if t = 2 then 1 else t) bytes next
  else if op = ">&2" ∨ op = "1>&2" then
    job.onWrite fun t bytes next => .write (if t = 1 then 2 else t) bytes next
  else if op = "<" then job
  else if path = "/dev/null" then
    job.onWrite fun t bytes next => if t = source then next else .write t bytes next
  else
    let kept := job.onWrite fun t bytes next =>
      if t = source then .change (appendTo path bytes) next else .write t bytes next
    if op = ">>" ∨ op = "2>>" then kept else .change (emptyFile path) kept

/-- The job of one command of a script. -/
def commandJob (find : String → Option Program) (s : Surroundings) : List String → Job
  | [] | ":" :: _ => .exit 0
  | "kill" :: args => killCommand s args
  | "echo" :: "-n" :: texts => emit (unescapeText true (" ".intercalate texts)).1 (.exit 0)
  | "echo" :: texts =>
    let (bytes, stop) := unescapeText true (" ".intercalate texts)
    emit (if stop then bytes else bytes ++ [lineEnd]) (.exit 0)
  | name :: args =>
    match find name with
    | some program => program s args
    | none => complain (scriptMessage s (name ++ ": not found")) (.exit 127)

/-- A word that gives a variable a value. -/
def scriptAssignment? (word : String) : Option (String × String) :=
  match word.toList.span (· != '=') with
  | (c :: name, '=' :: value) =>
    if isNameStart c && name.all isNameRest then
      some (String.ofList (c :: name), String.ofList value)
    else none
  | _ => none

/-- Whether a command is to run after one that ended with a code. -/
def ScriptJoin.admits (join : ScriptJoin) (code : Int) : Bool :=
  match join with
  | .always => true
  | .onSuccess => code == 0
  | .onFailure => code != 0

/-- Runs commands one after the other; `code` is how the last one ended.  The words `exit` and
`exec` leave no command behind them. -/
def runScript (find : String → Option Program) (s : Surroundings) (code : Int) :
    List ScriptCommand → Job
  | [] => .exit code
  | command :: rest =>
    if !command.join.admits code then runScript find s code rest
    else
      let bind (words : List String) : Job :=
        command.redirects.foldr
          (fun redirect job => redirectJob redirect.1 (expandPieces s code redirect.2) job)
          (commandJob find s words)
      match command.words.map (expandPieces s code) with
      | "exit" :: args => .exit (((args.head?.bind number?).getD code) % 256)
      | "exec" :: words => bind words
      | words =>
        match words.mapM scriptAssignment? with
        | some assigned =>
          runScript find { s with environment := assigned ++ s.environment } 0 rest
        | none => (bind words).andThen fun code => runScript find s code rest

/-- Runs the text of a script. -/
def runText (find : String → Option Program) (s : Surroundings) (script : String) : Job :=
  match commandsOf? script with
  | some commands => runScript find s 0 commands
  | none => complain (scriptMessage s "Syntax error: Unterminated quoted string") (.exit 2)

/-- The positional parameters of a script as variables, numbered from zero. -/
def positional (args : List String) : Environment :=
  (List.range args.length).zip args |>.map fun (n, value) => (toString n, value)

/-- Runs the script that follows `-c`, or else the one on standard input. -/
def scriptProgram (find : String → Option Program) : Program := fun s args =>
  match args with
  | "-c" :: script :: rest =>
    runText find { s with environment := positional rest ++ s.environment } script
  | _ =>
    .gather [] (fun _ => .exit 2) fun bytes =>
      runText find s ((String.fromUTF8? ⟨bytes.toArray⟩).getD "")

end LineShell
