import LineShell.File.Tree

namespace LineShell

/-!
# Jobs

A job is what a program does once it has taken the place of a process: it reads its standard
input, writes, looks at files and ends.  A program that goes on as long as its input lasts, or for
ever, is a job of its own kind, since a job is a finite description.

* `Job` — the steps of a program.
* `Job.onWrite`, `Job.andThen` — a job with its writing done in another way, and two jobs in a row.
* `bytesOf`, `linesOf` — texts as bytes, and bytes as lines.
-/

/-- The bytes of a text. -/
def bytesOf (s : String) : Bytes :=
  s.toUTF8.toList

/-- The byte that ends a line. -/
def lineEnd : UInt8 := 10

/-- The lines of the rest of a sequence of bytes, where `line` holds the current line and `done`
those before it, both in reverse. -/
def linesFrom (line : Bytes) (done : List Bytes) : Bytes → List Bytes
  | [] => (if line.isEmpty then done else line.reverse :: done).reverse
  | b :: bs =>
    if b = lineEnd then linesFrom [] (line.reverse :: done) bs else linesFrom (b :: line) done bs

/-- The lines of a sequence of bytes, without what ends them; the last one need not be ended. -/
def linesOf (bytes : Bytes) : List Bytes :=
  linesFrom [] [] bytes

/-- Lines as bytes, each one ended. -/
def ofLines (lines : List Bytes) : Bytes :=
  lines.flatMap (· ++ [lineEnd])

/-- The steps of a program. -/
inductive Job where
  /-- Ends with a code. -/
  | exit (code : Int)
  /-- Is killed. -/
  | killed (signal : Signal)
  /-- Writes to a descriptor. -/
  | write (target : Descriptor) (bytes : Bytes) (next : Job)
  /-- Passes standard input on to standard output. -/
  | copy (failed : Errno → Job) (next : Job)
  /-- Reads all of standard input; `held` is what was read, the latest part first. -/
  | gather (held : List Bytes) (failed : Errno → Job) (next : Bytes → Job)
  /-- Passes on a number of lines of standard input. -/
  | takeLines (count : Nat) (failed : Errno → Job) (next : Job)
  /-- Passes on a number of bytes of standard input. -/
  | takeBytes (count : Nat) (failed : Errno → Job) (next : Job)
  /-- Writes the same bytes for ever. -/
  | endless (bytes : Bytes)
  /-- Writes the numbers from `current` to `last` in steps, each as a text. -/
  | numbers (current step last : Int) (format : Int → Bytes) (next : Job)
  /-- Goes on as the size of standard input tells, if that is a file. -/
  | inputSize (next : Option Nat → Job)
  /-- Goes on as the files tell. -/
  | look (next : FileTree → Job)
  /-- Changes the files. -/
  | change (f : FileTree → FileTree) (next : Job)

/-- A job whose writing to a descriptor is done in another way.  What is passed on while it is
read stays as it is. -/
def Job.onWrite (f : Descriptor → Bytes → Job → Job) : Job → Job
  | .exit code => .exit code
  | .killed signal => .killed signal
  | .write target bytes next => f target bytes (next.onWrite f)
  | .copy failed next => .copy (fun e => (failed e).onWrite f) (next.onWrite f)
  | .gather held failed next =>
    .gather held (fun e => (failed e).onWrite f) (fun bytes => (next bytes).onWrite f)
  | .takeLines count failed next =>
    .takeLines count (fun e => (failed e).onWrite f) (next.onWrite f)
  | .takeBytes count failed next =>
    .takeBytes count (fun e => (failed e).onWrite f) (next.onWrite f)
  | .endless bytes => .endless bytes
  | .numbers current step last format next =>
    .numbers current step last format (next.onWrite f)
  | .inputSize next => .inputSize fun size => (next size).onWrite f
  | .look next => .look fun tree => (next tree).onWrite f
  | .change g next => .change g (next.onWrite f)

/-- A job with another one, which may depend on the code of the first, in the place of its end. -/
def Job.andThen (after : Int → Job) : Job → Job
  | .exit code => after code
  | .killed signal => .killed signal
  | .write target bytes next => .write target bytes (next.andThen after)
  | .copy failed next => .copy (fun e => (failed e).andThen after) (next.andThen after)
  | .gather held failed next =>
    .gather held (fun e => (failed e).andThen after) (fun bytes => (next bytes).andThen after)
  | .takeLines count failed next =>
    .takeLines count (fun e => (failed e).andThen after) (next.andThen after)
  | .takeBytes count failed next =>
    .takeBytes count (fun e => (failed e).andThen after) (next.andThen after)
  | .endless bytes => .endless bytes
  | .numbers current step last format next =>
    .numbers current step last format (next.andThen after)
  | .inputSize next => .inputSize fun size => (next size).andThen after
  | .look next => .look fun tree => (next tree).andThen after
  | .change g next => .change g (next.andThen after)

end LineShell
