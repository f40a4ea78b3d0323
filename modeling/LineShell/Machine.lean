import LineShell.Machine.Program.Known
import LineShell.Machine.Source
import LineShell.Console
import LineShell.Text.Colour
import LineShell.Text.Plain

namespace LineShell

/-!
# A machine

A machine keeps files, pipes and processes in memory and runs them one step at a time.  Of the
processes that can go on, the oldest one does.

* `Opened` — what a descriptor can refer to.
* `Running`, `Machine` — a process, and a machine with all of them.
* `Machine.step?` — one step of the oldest process that can go on.
* `Machine.await` — steps until a process has ended.
* A machine is a `System`: the shell runs on it.
-/

/-- What a descriptor can refer to. -/
inductive Opened where
  /-- A place in a file. -/
  | file (id : NodeId) (offset : Nat)
  | pipeRead (pipe : Nat)
  | pipeWrite (pipe : Nat)
  /-- The input of the shell. -/
  | input
  /-- The output of the shell. -/
  | output
  /-- The error output of the shell. -/
  | errors

/-- What a process is doing. -/
inductive Activity where
  /-- It sets itself up. -/
  | setup (process : Process)
  /-- A program has taken its place. -/
  | program (job : Job)
  /-- It has ended and was not waited for yet. -/
  | ended (status : ChildStatus)

/-- A process of a machine.  Its descriptors refer to entries of the table of open files, so that
processes can share a place in a file. -/
structure Running where
  pid : Pid
  descriptors : List (Descriptor × Nat)
  activity : Activity

/-- Where the log of a shell goes. -/
structure LogTarget where
  level : Level
  file : NodeId
  toStderr : Bool

/-- A machine: files, processes and what the shell has written. -/
structure Machine where
  tree : FileTree
  source : Source
  environment : Environment := []
  user : String := "?"
  host : String := "localhost"
  /-- The time that log records bear. -/
  time : String := "1970-01-01 00:00:00"
  /-- The number of the shell's own process. -/
  shellPid : Pid := 1000
  log : Option LogTarget := none
  /-- What was written to the output of the shell, the latest part first. -/
  output : List Bytes := []
  /-- What was written to the error output, likewise. -/
  errors : List Bytes := []
  /-- The table of open files.  Its first three entries are the standard streams of the shell. -/
  opened : Array Opened := #[.input, .output, .errors]
  /-- What each pipe holds. -/
  pipes : Array Bytes := #[]
  nextPid : Pid := 1001
  /-- The processes other than the shell, the oldest first. -/
  running : List Running := []

namespace Machine

/-! ### Writing and logging -/

/-- Writes to the output of the shell. -/
def print (m : Machine) (text : String) : Machine :=
  { m with output := bytesOf text :: m.output }

/-- Writes to the error output of the shell. -/
def printError (m : Machine) (text : String) : Machine :=
  { m with errors := bytesOf text :: m.errors }

/-- Adds bytes to the end of a file. -/
def appendFile (m : Machine) (id : NodeId) (bytes : Bytes) : Machine :=
  { m with tree := m.tree.setContent id (m.tree.content id ++ bytes) }

/-- A record as a line of the log. -/
def logLine (m : Machine) (pid : Pid) (notice : Notice) : String :=
  "[PID:" ++ toString pid ++ "][" ++ notice.level.name ++ "] " ++ m.time ++ " - " ++ notice.text
    ++ "\n"

/-- Whether a log takes a record.  What is said about the history file itself is taken at any
level. -/
def LogTarget.takes (target : LogTarget) (notice : Notice) : Bool :=
  match notice with
  | .historyLineBad _ => true
  | _ => target.level.admits notice.level

/-- Adds a record to the log. -/
def noteFrom (m : Machine) (pid : Pid) (notice : Notice) : Machine :=
  match m.log with
  | none => m
  | some target =>
    if LogTarget.takes target notice then
      let line := stripSequences (m.logLine pid notice)
      let m := m.appendFile target.file (bytesOf line)
      if target.toStderr then m.printError line else m
    else m

/-- Whether colours are on.  Nothing is written to a terminal, so they have to be asked for. -/
def colours (m : Machine) : Bool :=
  (m.environment.lookup "CLICOLOR_FORCE").any (· != "0")

/-- What the user is told of a failure inside a process. -/
def reportLine (m : Machine) (failure : Failure) : String :=
  Colour.brightRed.paint m.colours "forksh:" ++ " " ++ failure.message ++ "\n"

/-! ### Descriptors -/

/-- How much a pipe holds. -/
def pipeCapacity : Nat := 65536

/-- The table entry that a descriptor of a process refers to. -/
def entryOf (r : Running) (descriptor : Descriptor) : Option Nat :=
  r.descriptors.lookup descriptor

/-- What a descriptor of a process refers to. -/
def openedBy (m : Machine) (r : Running) (descriptor : Descriptor) : Option Opened :=
  (entryOf r descriptor).bind fun i => m.opened[i]?

/-- Whether some process can still do with a pipe what a test on open files asks. -/
def isHeld (m : Machine) (test : Opened → Bool) : Bool :=
  m.running.any fun r => r.descriptors.any fun d => (m.opened[d.2]?).any test

/-- Whether a pipe still has a reader. -/
def hasReader (m : Machine) (pipe : Nat) : Bool :=
  m.isHeld fun
    | .pipeRead p => p == pipe
    | _ => false

/-- Whether a pipe still has a writer. -/
def hasWriter (m : Machine) (pipe : Nat) : Bool :=
  m.isHeld fun
    | .pipeWrite p => p == pipe
    | _ => false

/-- The lowest number from `n` on that is not among some descriptors; `n` is raised at most once
for each of them. -/
def lowestFrom (descriptors : List (Descriptor × Nat)) : Nat → Nat → Descriptor
  | 0, n => Int.ofNat n
  | fuel + 1, n =>
    if (descriptors.lookup (Int.ofNat n)).isSome then lowestFrom descriptors fuel (n + 1)
    else Int.ofNat n

/-- The lowest descriptor that is free. -/
def freeDescriptor (descriptors : List (Descriptor × Nat)) : Descriptor :=
  lowestFrom descriptors (descriptors.length + 1) 0

/-- Adds an open file and a descriptor for it. -/
def openNew (m : Machine) (r : Running) (file : Opened) : Descriptor × Running × Machine :=
  let descriptor := freeDescriptor r.descriptors
  (descriptor, { r with descriptors := (descriptor, m.opened.size) :: r.descriptors },
    { m with opened := m.opened.push file })

/-! ### Processes -/

/-- Puts a process into the place of the one with its number. -/
def update (m : Machine) (r : Running) : Machine :=
  { m with running := m.running.map fun old => if old.pid = r.pid then r else old }

/-- A process that has ended. -/
def finish (m : Machine) (r : Running) (status : ChildStatus) : Machine :=
  m.update { r with descriptors := [], activity := .ended status }

/-- A code as the system keeps it. -/
def keptCode (code : Int) : Int :=
  code % 256

/-- Starts a process with some descriptors. -/
def start (m : Machine) (descriptors : List (Descriptor × Nat)) (process : Process) :
    Pid × Machine :=
  (m.nextPid,
    { m with
      nextPid := m.nextPid + 1
      running := m.running ++ [⟨m.nextPid, descriptors, .setup process⟩] })

/-- The status of a process that has ended, which is then forgotten. -/
def reap (m : Machine) (pid : Pid) : Option (ChildStatus × Machine) :=
  match m.running.find? (·.pid == pid) with
  | some ⟨_, _, .ended status⟩ =>
    some (status, { m with running := m.running.filter (·.pid != pid) })
  | _ => none

/-! ### Programs -/

/-- The directories that programs are in. -/
def programDirectories : List String := ["/bin", "/usr/bin", "/usr/local/bin"]

/-- The program that a file which may be run holds: a script. -/
def scriptFile (bytes : Bytes) : Program := fun s args =>
  match program? "sh" with
  | some sh => sh s ("-c" :: (String.fromUTF8? ⟨bytes.toArray⟩).getD "" :: args)
  | none => .exit 126

/-- The program that a name with a slash leads to. -/
def programAt (tree : FileTree) (path : String) : Except Errno Program :=
  let directory := (Path.parent? path).getD ""
  match if programDirectories.contains directory then program? (Path.baseName path) else none with
  | some program => .ok program
  | none => do
    let id ← tree.resolve path
    if tree.isExecutable id then .ok (scriptFile (tree.content id)) else .error .eacces

/-- The program that a name means. -/
def programFor (tree : FileTree) (name : String) : Except Errno Program :=
  if name.toList.contains '/' then programAt tree name
  else if name = "." ∨ name = ".." then .error .eacces
  else if name.utf8ByteSize > FileTree.maxName then .error .enametoolong
  else
    match program? name with
    | some program => .ok program
    | none => .error .enoent

/-- The job that takes the place of a process. -/
def jobFor (m : Machine) (pid : Pid) (argv : List String) : Except Errno Job :=
  if argv.any fun a => a.toList.contains '\x00' then .error .einval
  else
    match argv with
    | [] => .error .einval
    | name :: args => do
      let program ← programFor m.tree name
      .ok (program ⟨pid, m.environment⟩ args)

/-! ### Steps of a process that sets itself up -/

/-- Opens the file of a redirect. -/
def openPath (m : Machine) (r : Running) (path : String) (direction : Direction) :
    Except Errno Descriptor × Running × Machine :=
  if path.toList.contains '\x00' then (.error .einval, r, m)
  else
    let result : Except Errno (NodeId × FileTree) :=
      match direction with
      | .input => (m.tree.resolve path).map fun id => (id, m.tree)
      | .output => m.tree.openForWriting path
    match result with
    | .error e => (.error e, r, m)
    | .ok (id, tree) =>
      let (descriptor, r, m) := { m with tree := tree }.openNew r (.file id 0)
      (.ok descriptor, r, m)

/-- One call of a process; `none` when it has to wait. -/
def setupStep? (m : Machine) (r : Running) : Process → Option Machine
  | .exit code => some (m.finish r (.exited r.pid (keptCode code)))
  | .fork child next =>
    let (pid, m) := m.start r.descriptors child
    some (m.update { r with activity := .setup (next (.ok pid)) })
  | .pipe next =>
    let pipe := m.pipes.size
    let m := { m with pipes := m.pipes.push [] }
    let (read, r, m) := m.openNew r (.pipeRead pipe)
    let (write, r, m) := m.openNew r (.pipeWrite pipe)
    some (m.update { r with activity := .setup (next (.ok ⟨read, write⟩)) })
  | .dup2 source target next =>
    match entryOf r source with
    | none => some (m.update { r with activity := .setup (next (.error .ebadf)) })
    | some i =>
      let kept := r.descriptors.filter (·.1 != target)
      some (m.update
        { r with descriptors := (target, i) :: kept, activity := .setup (next (.ok ())) })
  | .close descriptor next =>
    let result := if (entryOf r descriptor).isSome then .ok () else .error .ebadf
    let kept := r.descriptors.filter (·.1 != descriptor)
    some (m.update { r with descriptors := kept, activity := .setup (next result) })
  | .openFile path direction next =>
    let (result, r, m) := m.openPath r path direction
    some (m.update { r with activity := .setup (next result) })
  | .exec argv next =>
    match m.jobFor r.pid argv with
    | .error e => some (m.update { r with activity := .setup (next e) })
    | .ok job => some (m.update { r with activity := .program job })
  | .wait pid next =>
    match m.reap pid with
    | some (status, m) => some (m.update { r with activity := .setup (next (.ok status)) })
    | none =>
      if m.running.any (·.pid == pid) then none
      else some (m.update { r with activity := .setup (next (.error .echild)) })
  | .note notice next => some ((m.noteFrom r.pid notice).update { r with activity := .setup next })
  | .report failure next =>
    some ((m.printError (m.reportLine failure)).update { r with activity := .setup next })

/-! ### Steps of a program -/

/-- What reading standard input gives: nothing yet, an error, or bytes, which are none at the
end. -/
inductive ReadResult where
  | blocked
  | failed (errno : Errno)
  | bytes (bytes : Bytes) (m : Machine)

/-- How much is read at once. -/
def readSize : Nat := 65536

/-- Reads standard input. -/
def readInput (m : Machine) (r : Running) : ReadResult :=
  match entryOf r standardInput with
  | none => .failed .ebadf
  | some i =>
    match m.opened[i]? with
    | some (.file id offset) =>
      if m.tree.isDirectory id then .failed .eisdir
      else
        let bytes := ((m.tree.content id).drop offset).take readSize
        .bytes bytes { m with opened := m.opened.setIfInBounds i (.file id (offset + bytes.length)) }
    | some (.pipeRead pipe) =>
      let held := (m.pipes[pipe]?).getD []
      if !held.isEmpty then .bytes held { m with pipes := m.pipes.setIfInBounds pipe [] }
      else if m.hasWriter pipe then .blocked
      else .bytes [] m
    | some .input =>
      let unread := m.source.unread
      .bytes (unread.take readSize)
        { m with source := { m.source with unread := unread.drop readSize } }
    | _ => .failed .ebadf

/-- Gives back bytes that were read and not used, where the input can go back. -/
def giveBack (m : Machine) (r : Running) (bytes : Bytes) : Machine :=
  match entryOf r standardInput with
  | none => m
  | some i =>
    match m.opened[i]? with
    | some (.file id offset) =>
      { m with opened := m.opened.setIfInBounds i (.file id (offset - bytes.length)) }
    | some .input => { m with source := { m.source with unread := bytes ++ m.source.unread } }
    | _ => m

/-- Bytes written into others at a place. -/
def writeAt (content : Bytes) (offset : Nat) (bytes : Bytes) : Bytes :=
  content.take offset ++ List.replicate (offset - content.length) 0 ++ bytes
    ++ content.drop (offset + bytes.length)

/-- Writes to a descriptor; `none` when the process has to wait.  A process that writes what
nobody can read is killed. -/
def writeStep? (m : Machine) (r : Running) (target : Descriptor) (bytes : Bytes) (next : Job) :
    Option Machine :=
  let done (m : Machine) : Machine := m.update { r with activity := .program next }
  match entryOf r target with
  | none => some (done m)
  | some i =>
    match m.opened[i]? with
    | some .output => some (done { m with output := bytes :: m.output })
    | some .errors => some (done { m with errors := bytes :: m.errors })
    | some (.file id offset) =>
      let tree := m.tree.setContent id (writeAt (m.tree.content id) offset bytes)
      let opened := m.opened.setIfInBounds i (.file id (offset + bytes.length))
      some (done { m with tree := tree, opened := opened })
    | some (.pipeWrite pipe) =>
      if !m.hasReader pipe then some (m.finish r (.signaled r.pid .sigpipe))
      else
        let held := (m.pipes[pipe]?).getD []
        let room := pipeCapacity - held.length
        if room = 0 then none
        else
          let m := { m with pipes := m.pipes.setIfInBounds pipe (held ++ bytes.take room) }
          let rest := bytes.drop room
          some (m.update
            { r with activity := .program (if rest.isEmpty then next else .write target rest next) })
    | _ => some (done m)

/-- The front of bytes that holds at most a number of lines, how many lines are then still
missing, and the bytes behind; `done` is the front so far in reverse. -/
def cutLines (done : Bytes) : Nat → Bytes → Bytes × Nat × Bytes
  | 0, bytes => (done.reverse, 0, bytes)
  | count, [] => (done.reverse, count, [])
  | count + 1, b :: bs => cutLines (b :: done) (if b = lineEnd then count else count + 1) bs

/-- How many numbers are written at once. -/
def numbersAtOnce : Nat := 4096

/-- The texts of at most a number of the numbers from `current` to `last`, in reverse, and the
number that follows them, if there is one. -/
def someNumbers (step last : Int) (format : Int → Bytes) :
    Nat → Int → List Bytes → List Bytes × Option Int
  | 0, current, done => (done, some current)
  | fuel + 1, current, done =>
    if (0 < step ∧ last < current) ∨ (step < 0 ∧ current < last) then (done, none)
    else someNumbers step last format fuel (current + step) (format current :: done)

/-- The bytes written at once by a job without end. -/
def endlessChunk (bytes : Bytes) : Bytes :=
  (List.replicate (8192 / (bytes.length + 1) + 1) bytes).flatten

/-- One step of a job; `none` when it has to wait. -/
def jobStep? (m : Machine) (r : Running) : Job → Option Machine
  | .exit code => some (m.finish r (.exited r.pid (keptCode code)))
  | .killed signal => some (m.finish r (.signaled r.pid signal))
  | .write target bytes next =>
    if bytes.isEmpty then some (go m next) else m.writeStep? r target bytes next
  | .copy failed next =>
    match m.readInput r with
    | .blocked => none
    | .failed e => some (go m (failed e))
    | .bytes [] m => some (go m next)
    | .bytes bytes m => some (go m (.write standardOutput bytes (.copy failed next)))
  | .gather held failed next =>
    match m.readInput r with
    | .blocked => none
    | .failed e => some (go m (failed e))
    | .bytes [] m => some (go m (next held.reverse.flatten))
    | .bytes bytes m => some (go m (.gather (bytes :: held) failed next))
  | .takeLines count failed next =>
    if count = 0 then some (go m next)
    else
      match m.readInput r with
      | .blocked => none
      | .failed e => some (go m (failed e))
      | .bytes [] m => some (go m next)
      | .bytes bytes m =>
        let (front, missing, behind) := cutLines [] count bytes
        some (go (m.giveBack r behind)
          (.write standardOutput front (.takeLines missing failed next)))
  | .takeBytes count failed next =>
    if count = 0 then some (go m next)
    else
      match m.readInput r with
      | .blocked => none
      | .failed e => some (go m (failed e))
      | .bytes [] m => some (go m next)
      | .bytes bytes m =>
        some (go (m.giveBack r (bytes.drop count))
          (.write standardOutput (bytes.take count)
            (.takeBytes (count - bytes.length) failed next)))
  | .endless bytes =>
    some (go m (.write standardOutput (endlessChunk bytes) (.endless bytes)))
  | .numbers current step last format next =>
    let (texts, following) := someNumbers step last format numbersAtOnce current []
    let next := match following with
      | some n => .numbers n step last format next
      | none => next
    some (go m (.write standardOutput texts.reverse.flatten next))
  | .inputSize next =>
    let size := match m.openedBy r standardInput with
      | some (.file id _) => if m.tree.isDirectory id then none else some (m.tree.content id).length
      | some .input => some m.source.size
      | _ => none
    some (go m (next size))
  | .look next => some (go m (next m.tree))
  | .change f next => some (go { m with tree := f m.tree } next)
where
  /-- The process goes on with a job. -/
  go (m : Machine) (job : Job) : Machine :=
    m.update { r with activity := .program job }

/-! ### Running -/

/-- One step of a process; `none` when it has to wait or has ended. -/
def stepOf? (m : Machine) (r : Running) : Option Machine :=
  match r.activity with
  | .setup process => m.setupStep? r process
  | .program job => m.jobStep? r job
  | .ended _ => none

/-- One step of the oldest process that can go on. -/
def step? (m : Machine) : Option Machine :=
  m.running.findSome? m.stepOf?

/-- Steps until a process has ended.  When no process can go on, or all allowed steps are made,
waiting could never end. -/
def await (pid : Pid) : Nat → Machine → Except Errno ChildStatus × Machine
  | 0, m => (.error .edeadlk, m)
  | fuel + 1, m =>
    match m.reap pid with
    | some (status, m) => (.ok status, m)
    | none =>
      match m.step? with
      | some m => await pid fuel m
      | none => (.error .edeadlk, m)

/-- How many steps the processes of a line may make. -/
def stepLimit : Nat := 1000000

/-- Whether the terminal takes no prompt that can be edited, so that the prompt is just
written. -/
def writesPrompt (m : Machine) : Bool :=
  ["dumb", "cons25", "emacs"].any fun name =>
    (m.environment.lookup "TERM").any fun term => term.toList.map Char.toLower == name.toList

instance : System Machine where
  fork process m :=
    let (pid, m) := m.start [(0, 0), (1, 1), (2, 2)] process
    (.ok pid, m)
  wait pid m := m.await pid stepLimit
  changeDirectory path m :=
    match m.tree.changeDirectory path with
    | .ok tree => (.ok (), { m with tree := tree })
    | .error fault => (.error fault, m)
  note notice m := m.noteFrom m.shellPid notice

instance : HasDirectory Machine where
  currentDirectory? m := m.tree.currentDirectory?

instance : Console Machine where
  readLine prompt m :=
    let m := if m.writesPrompt then m.print prompt else m
    let (line, source) := m.source.read
    (line, { m with source := source })
  print := fun text m => m.print text
  printError := fun text m => m.printError text
  flush m := (.ok (), m)
  readFile path m := readPath m.tree path
  writeFile path bytes m :=
    match m.tree.openForWriting path with
    | .ok (id, tree) => (.ok (), { m with tree := tree.setContent id bytes })
    | .error e => (.error e, m)
  identity m := (m.user, m.host)

end Machine

end LineShell
