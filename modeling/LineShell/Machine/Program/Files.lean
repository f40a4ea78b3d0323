import LineShell.Machine.Program

namespace LineShell

/-!
# Programs about files

* `pwdProgram`, `lsProgram` — where the shell is and what is there.
* `touchProgram`, `chmodProgram`, `mkdirProgram`, `rmProgram`, `rmdirProgram`, `cpProgram`,
  `mvProgram` — changes.
* `teeProgram` — text passed on and kept.
* `basenameProgram`, `dirnameProgram`, `testProgram` — paths and conditions.
-/

/-- Does something for each operand; the code is one when it fails for any of them. -/
def forOperands (act : FileTree → String → Except String FileTree) (code : Int) :
    List String → Job
  | [] => .exit code
  | path :: rest =>
    .look fun tree =>
      match act tree path with
      | .ok changed => .change (fun _ => changed) (forOperands act code rest)
      | .error message => complain message (forOperands act 1 rest)

/-- Writes the path of the working directory. -/
def pwdProgram : Program := fun _ _ =>
  .look fun tree =>
    match tree.currentDirectory? with
    | some path => say (path ++ "\n") (.exit 0)
    | none =>
      failWith "pwd: couldn't find directory entry in '..' with matching i-node"

/-- The names that `ls` shows of a directory. -/
def shownNames (letters : List Char) (tree : FileTree) (id : NodeId) : List String :=
  let names := tree.entryNames id
  let hidden (name : String) : Bool := name.toList.head? == some '.'
  if letters.contains 'a' then
    [".", ".."] ++ names
  else if letters.contains 'A' then names
  else names.filter fun name => !hidden name

/-- Writes the names in directories. -/
def lsProgram : Program := fun _ args =>
  let (options, operands) := splitOptions args
  let letters := optionLetters options
  let operands := (if operands.isEmpty then ["."] else operands).mergeSort fun a b => decide (a ≤ b)
  let ordered (names : List String) : List String :=
    if letters.contains 'r' then names.reverse else names
  .look fun tree =>
    let found := operands.map fun path => (path, tree.resolve path)
    let missing := found.filterMap fun (path, result) =>
      match result with
      | .error e => some ("ls: cannot access '" ++ path ++ "': " ++ e.description)
      | .ok _ => none
    let isDir (id : NodeId) : Bool := tree.isDirectory id && !letters.contains 'd'
    let files := found.filterMap fun (path, result) =>
      match result with
      | .ok id => if isDir id then none else some path
      | .error _ => none
    let dirs := found.filterMap fun (path, result) =>
      match result with
      | .ok id => if isDir id then some (path, id) else none
      | .error _ => none
    let lines (names : List String) : String := String.join (names.map (· ++ "\n"))
    let listing (dir : String × NodeId) : String :=
      (if operands.length > 1 then dir.1 ++ ":\n" else "")
        ++ lines (ordered (shownNames letters tree dir.2))
    let parts := (if files.isEmpty then [] else [lines (ordered files)]) ++ dirs.map listing
    missing.foldr complain (say ("\n".intercalate parts) (.exit (if missing.isEmpty then 0 else 2)))

/-- Makes files that are missing. -/
def touchProgram : Program := fun _ args =>
  forOperands (fun tree path =>
    if tree.leadsToDirectory path then .ok tree
    else
      match tree.openForAppending path with
      | .ok opened => .ok opened.2
      | .error e => .error ("touch: cannot touch '" ++ path ++ "': " ++ e.description))
    0 (splitOptions args).2

/-- Whether a mode allows to run a file: an odd digit in it, or an added `x`. -/
def modeAllows? (mode : String) : Option Bool :=
  let cs := mode.toList
  if !cs.isEmpty && cs.all Char.isDigit then some (cs.any fun c => c.toNat % 2 == 1)
  else if !cs.contains 'x' then none
  else some (!cs.contains '-')

/-- Allows or forbids to run files as programs. -/
def chmodProgram : Program := fun _ args =>
  match args with
  | [] => failWith "chmod: missing operand\nTry 'chmod --help' for more information."
  | mode :: operands =>
    forOperands (fun tree path =>
      match tree.resolve path with
      | .ok id =>
        .ok (match modeAllows? mode with
          | some executable => tree.setExecutable id executable
          | none => tree)
      | .error e => .error ("chmod: cannot access '" ++ path ++ "': " ++ e.description))
      0 operands

/-- Makes directories. -/
def mkdirProgram : Program := fun _ args =>
  let (options, operands) := splitOptions args
  let parents := (optionLetters options).contains 'p'
  forOperands (fun tree path =>
    match if parents then tree.makeDirectories path else tree.makeDirectory path with
    | .ok tree => .ok tree
    | .error e => .error ("mkdir: cannot create directory '" ++ path ++ "': " ++ e.description))
    0 operands

/-- Removes files, and directories when asked to. -/
def rmProgram : Program := fun _ args =>
  let (options, operands) := splitOptions args
  let letters := optionLetters options
  let deep := letters.any fun c => c == 'r' || c == 'R'
  forOperands (fun tree path =>
    let removed := if deep && tree.leadsToDirectory path then tree.removeTree path
      else tree.removeFile path
    match removed with
    | .ok tree => .ok tree
    | .error e =>
      if letters.contains 'f' && e = Errno.enoent then .ok tree
      else .error ("rm: cannot remove '" ++ path ++ "': " ++ e.description))
    0 operands

/-- Removes empty directories. -/
def rmdirProgram : Program := fun _ args =>
  forOperands (fun tree path =>
    match tree.removeDirectory path with
    | .ok tree => .ok tree
    | .error e => .error ("rmdir: failed to remove '" ++ path ++ "': " ++ e.description))
    0 (splitOptions args).2

/-- Where a file goes: below the target when that is a directory. -/
def destination (tree : FileTree) (target source : String) : String :=
  if tree.leadsToDirectory target then Path.join target (Path.baseName source) else target

/-- Copies a file. -/
def copyFile (program : String) (tree : FileTree) (target source : String) :
    Except String FileTree :=
  match readPath tree source with
  | .error e =>
    if e = Errno.eisdir then
      .error (program ++ ": -r not specified; omitting directory '" ++ source ++ "'")
    else .error (program ++ ": cannot stat '" ++ source ++ "': " ++ e.description)
  | .ok bytes =>
    match tree.openForWriting (destination tree target source) with
    | .ok (id, tree) => .ok (tree.setContent id bytes)
    | .error e =>
      .error (program ++ ": cannot create regular file '" ++ destination tree target source
        ++ "': " ++ e.description)

/-- Copies files to the last operand. -/
def cpProgram : Program := fun _ args =>
  let operands := (splitOptions args).2
  match operands.getLast? with
  | none => failWith "cp: missing file operand\nTry 'cp --help' for more information."
  | some target =>
    if operands.length < 2 then
      failWith ("cp: missing destination file operand after '" ++ target
        ++ "'\nTry 'cp --help' for more information.")
    else forOperands (fun tree source => copyFile "cp" tree target source) 0 operands.dropLast

/-- Moves a file or directory. -/
def movePath (tree : FileTree) (target source : String) : Except String FileTree :=
  let problem (e : Errno) : String := "mv: cannot stat '" ++ source ++ "': " ++ e.description
  let moved : Except Errno FileTree := do
    let id ← tree.resolve source
    let (parent, name) ← tree.locate source
    let place ← tree.placeFor (destination tree target source)
    let tree := (tree.dropName parent name).dropName place.1 place.2
    let tree := tree.mapEntries place.1 ((place.2, id) :: ·)
    match tree.nodes[id]? with
    | some (.directory _ entries) => .ok (tree.setNode id (.directory place.1 entries))
    | _ => .ok tree
  moved.mapError problem

/-- Moves files to the last operand. -/
def mvProgram : Program := fun _ args =>
  let operands := (splitOptions args).2
  match operands.getLast? with
  | none => failWith "mv: missing file operand\nTry 'mv --help' for more information."
  | some target =>
    if operands.length < 2 then
      failWith ("mv: missing destination file operand after '" ++ target
        ++ "'\nTry 'mv --help' for more information.")
    else forOperands (fun tree source => movePath tree target source) 0 operands.dropLast

/-- Passes its input on and keeps it in files. -/
def teeProgram : Program := fun _ args =>
  let (options, operands) := splitOptions args
  let append := (optionLetters options).contains 'a'
  .gather [] (fun e => failWith ("tee: read error: " ++ e.description)) fun bytes =>
    emit bytes <|
      forOperands (fun tree path =>
        match tree.openForAppending path with
        | .ok (id, tree) =>
          .ok (tree.setContent id ((if append then tree.content id else []) ++ bytes))
        | .error e => .error (fileMessage "tee" path e)) 0 operands

/-- Writes the last name of a path, without an ending when one is given. -/
def basenameProgram : Program := fun _ args =>
  match args with
  | [] => failWith "basename: missing operand\nTry 'basename --help' for more information."
  | path :: rest =>
    let name := Path.baseName path
    let name := if name.isEmpty then name
      else if name.toList.all (· == '/') then "/" else name
    let ending := rest.headD ""
    let cut := name.toList.take (name.length - ending.length)
    let name := if !ending.isEmpty && name != ending && ending.toList.isSuffixOf name.toList
      then String.ofList cut else name
    say (name ++ "\n") (.exit 0)

/-- Writes the directory of a path. -/
def dirnameProgram : Program := fun _ args =>
  match args with
  | [] => failWith "dirname: missing operand\nTry 'dirname --help' for more information."
  | path :: _ =>
    let cs := (path.toList.reverse.dropWhile (· == '/')).dropWhile (· != '/')
    let cs := (cs.dropWhile (· == '/')).reverse
    let directory := if !cs.isEmpty then String.ofList cs
      else if Path.isAbsolute path then "/" else "."
    say (directory ++ "\n") (.exit 0)

/-- Whether a condition holds; `none` when it cannot be read. -/
def condition (tree : FileTree) : List String → Option Bool
  | [] => some false
  | "!" :: rest => (condition tree rest).map (!·)
  | [a] => some (!a.isEmpty)
  | ["-n", a] => some (!a.isEmpty)
  | ["-z", a] => some a.isEmpty
  | ["-e", a] => some (tree.resolve a).toOption.isSome
  | ["-d", a] => some (tree.leadsToDirectory a)
  | ["-f", a] => some (readPath tree a).toOption.isSome
  | ["-s", a] => some ((readPath tree a).toOption.any fun bytes => !bytes.isEmpty)
  | ["-r", a] => some (tree.resolve a).toOption.isSome
  | ["-w", a] => some (tree.resolve a).toOption.isSome
  | ["-x", a] => some (tree.leadsToDirectory a)
  | [a, op, b] =>
    let compare (p : Int → Int → Bool) : Option Bool := do
      let x ← number? a
      let y ← number? b
      some (p x y)
    match op with
    | "=" | "==" => some (a == b)
    | "!=" => some (a != b)
    | "-eq" => compare fun x y => x == y
    | "-ne" => compare fun x y => x != y
    | "-lt" => compare fun x y => decide (x < y)
    | "-le" => compare fun x y => decide (x ≤ y)
    | "-gt" => compare fun x y => decide (y < x)
    | "-ge" => compare fun x y => decide (y ≤ x)
    | _ => none
  | _ => none

/-- Ends as a condition tells. -/
def testProgram : Program := fun _ args =>
  .look fun tree =>
    match condition tree args with
    | some true => .exit 0
    | some false => .exit 1
    | none => complain "test: extra argument" (.exit 2)

/-- Ends as a condition tells that a closing bracket ends. -/
def bracketProgram : Program := fun s args =>
  if args.getLast? = some "]" then testProgram s args.dropLast
  else complain "[: missing ']'" (.exit 2)

end LineShell
