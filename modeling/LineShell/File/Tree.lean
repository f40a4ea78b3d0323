import LineShell.File.Path
import LineShell.Process

namespace LineShell

/-!
# Directories and files

The files of a system form a tree of directories.  A file or directory that has lost its name
stays what it is for those who still use it, so nodes are numbered and a name is an entry of a
directory.

* `Node` — a file or a directory.
* `FileTree` — all nodes, with the working directory.
* `FileTree.resolve` — the node that a path leads to.
* `FileTree.currentDirectory?` — the path of the working directory.
* `FileTree.changeDirectory`, `FileTree.openForWriting`, … — the operations on the tree.
-/

/-- The number of a file or directory. -/
abbrev NodeId := Nat

/-- The bytes of a file. -/
abbrev Bytes := List UInt8

/-- A file or a directory. -/
inductive Node where
  | file (content : Bytes) (executable : Bool)
  | directory (parent : NodeId) (entries : List (String × NodeId))

/-- All files and directories of a system, and the working directory.  The root has number
zero. -/
structure FileTree where
  nodes : Array Node
  current : NodeId

namespace FileTree

/-- The tree of an empty root. -/
def empty : FileTree := ⟨#[.directory 0 []], 0⟩

/-! ### Following paths -/

/-- The longest name, in bytes. -/
def maxName : Nat := 255

/-- The length, in bytes, at which a path is too long. -/
def pathLimit : Nat := 4096

/-- The node that a name leads to from a directory. -/
def child (t : FileTree) (directory : NodeId) (name : String) : Except Errno NodeId :=
  match t.nodes[directory]? with
  | some (.directory parent entries) =>
    if name == "." then .ok directory
    else if name == ".." then .ok parent
    else if name.utf8ByteSize > maxName then .error .enametoolong
    else
      match entries.lookup name with
      | some id => .ok id
      | none => .error .enoent
  | some (.file ..) => .error .enotdir
  | none => .error .enoent

/-- The node that names lead to one after the other. -/
def walk (t : FileTree) (directory : NodeId) (names : List String) : Except Errno NodeId :=
  names.foldlM t.child directory

/-- Where a path begins. -/
def startOf (t : FileTree) (path : String) : NodeId :=
  if Path.isAbsolute path then 0 else t.current

/-- Refuses the empty path and paths that are too long. -/
def checkPath (path : String) : Except Errno Unit :=
  if path.isEmpty then .error .enoent
  else if path.utf8ByteSize ≥ pathLimit then .error .enametoolong
  else .ok ()

/-- Whether a node is a directory. -/
def isDirectory (t : FileTree) (id : NodeId) : Bool :=
  match t.nodes[id]? with
  | some (.directory ..) => true
  | _ => false

/-- The node that a path leads to.  Before a trailing slash only a directory will do. -/
def resolve (t : FileTree) (path : String) : Except Errno NodeId := do
  checkPath path
  let id ← t.walk (t.startOf path) (Path.names path)
  if Path.endsWithSlash path && !t.isDirectory id then .error .enotdir else .ok id

/-- The directory that the last name of a path belongs to, and that name. -/
def locate (t : FileTree) (path : String) : Except Errno (NodeId × String) := do
  checkPath path
  let names := Path.names path
  match names.getLast? with
  | none => .error .eexist
  | some name =>
    let id ← t.walk (t.startOf path) names.dropLast
    if !t.isDirectory id then .error .enotdir
    else if name.utf8ByteSize > maxName then .error .enametoolong
    else .ok (id, name)

/-- The names from the root down to a directory, last first; `none` when one of them is gone.  A
walk upwards is no longer than the number of nodes. -/
def namesUp (t : FileTree) : Nat → NodeId → Option (List String)
  | 0, _ => none
  | fuel + 1, id =>
    if id = 0 then some []
    else
      match t.nodes[id]? with
      | some (.directory parent _) =>
        match t.nodes[parent]? with
        | some (.directory _ entries) =>
          match entries.find? (·.2 == id) with
          | some (name, _) => (t.namesUp fuel parent).map (name :: ·)
          | none => none
        | _ => none
      | _ => none

/-- The path of a directory; `none` when it has lost its name. -/
def pathOf? (t : FileTree) (id : NodeId) : Option String :=
  (t.namesUp (t.nodes.size + 1) id).map fun names => "/" ++ "/".intercalate names.reverse

/-- The path of the working directory; `none` when it has lost its name. -/
def currentDirectory? (t : FileTree) : Option String :=
  t.pathOf? t.current

/-- Moves the working directory. -/
def changeDirectory (t : FileTree) (path : String) : Except PathFault FileTree :=
  if '\x00' ∈ path.toList then .error .nulInPath
  else
    match t.resolve path with
    | .error e => .error (.system e)
    | .ok id => if t.isDirectory id then .ok { t with current := id } else .error (.system .enotdir)

/-! ### Changing the tree -/

/-- Puts a node in the place of another. -/
def setNode (t : FileTree) (id : NodeId) (node : Node) : FileTree :=
  { t with nodes := t.nodes.setIfInBounds id node }

/-- Changes the entries of a directory. -/
def mapEntries (t : FileTree) (id : NodeId)
    (f : List (String × NodeId) → List (String × NodeId)) : FileTree :=
  match t.nodes[id]? with
  | some (.directory parent entries) => t.setNode id (.directory parent (f entries))
  | _ => t

/-- Adds a node under a name. -/
def addNode (t : FileTree) (directory : NodeId) (name : String) (node : Node) :
    NodeId × FileTree :=
  let id := t.nodes.size
  (id, { t with nodes := t.nodes.push node }.mapEntries directory ((name, id) :: ·))

/-- Takes a name out of a directory. -/
def dropName (t : FileTree) (directory : NodeId) (name : String) : FileTree :=
  t.mapEntries directory fun entries => entries.filter (·.1 != name)

/-- The place for a new entry.  Nothing can be added to a directory that has lost its name. -/
def placeFor (t : FileTree) (path : String) : Except Errno (NodeId × String) := do
  let (id, name) ← t.locate path
  if (t.pathOf? id).isNone then .error .enoent else .ok (id, name)

/-- Makes a directory. -/
def makeDirectory (t : FileTree) (path : String) : Except Errno FileTree :=
  match t.resolve path with
  | .ok _ => .error .eexist
  | .error e =>
    if e = Errno.enoent then do
      let (id, name) ← t.placeFor path
      .ok (t.addNode id name (.directory id [])).2
    else .error e

/-- Whether a path leads to a directory. -/
def leadsToDirectory (t : FileTree) (path : String) : Bool :=
  match t.resolve path with
  | .ok id => t.isDirectory id
  | .error _ => false

/-- Makes a directory unless it is there. -/
def ensureDirectory (t : FileTree) (path : String) : Except Errno FileTree :=
  match t.makeDirectory path with
  | .ok t => .ok t
  | .error e => if t.leadsToDirectory path then .ok t else .error e

/-- Makes a directory and those above it that are missing; the number bounds how many. -/
def makeDirectoriesWithin : Nat → FileTree → String → Except Errno FileTree
  | 0, t, path => t.ensureDirectory path
  | depth + 1, t, path =>
    if path.isEmpty then .ok t
    else
      match t.ensureDirectory path with
      | .ok t => .ok t
      | .error e =>
        if e = Errno.enoent then
          match Path.parent? path with
          | none => .error e
          | some parent => do
            let t ← makeDirectoriesWithin depth t parent
            t.ensureDirectory path
        else .error e

/-- Makes a directory and those above it that are missing. -/
def makeDirectories (t : FileTree) (path : String) : Except Errno FileTree :=
  makeDirectoriesWithin ((Path.names path).length + 1) t path

/-- The bytes of a file; a directory has none. -/
def content (t : FileTree) (id : NodeId) : Bytes :=
  match t.nodes[id]? with
  | some (.file bytes _) => bytes
  | _ => []

/-- Puts other bytes into a file. -/
def setContent (t : FileTree) (id : NodeId) (bytes : Bytes) : FileTree :=
  match t.nodes[id]? with
  | some (.file _ executable) => t.setNode id (.file bytes executable)
  | _ => t

/-- Whether a file may be run as a program. -/
def isExecutable (t : FileTree) (id : NodeId) : Bool :=
  match t.nodes[id]? with
  | some (.file _ executable) => executable
  | _ => false

/-- Allows or forbids to run a file as a program. -/
def setExecutable (t : FileTree) (id : NodeId) (executable : Bool) : FileTree :=
  match t.nodes[id]? with
  | some (.file bytes _) => t.setNode id (.file bytes executable)
  | _ => t

/-- Opens a file, which is made if it is missing. -/
def openForAppending (t : FileTree) (path : String) : Except Errno (NodeId × FileTree) :=
  match t.resolve path with
  | .ok id => if t.isDirectory id then .error .eisdir else .ok (id, t)
  | .error e =>
    if e = Errno.enoent then
      if Path.endsWithSlash path then .error .eisdir
      else do
        let (id, name) ← t.placeFor path
        .ok (t.addNode id name (.file [] false))
    else .error e

/-- Opens a file for writing from an empty start; it is made if it is missing. -/
def openForWriting (t : FileTree) (path : String) : Except Errno (NodeId × FileTree) := do
  let (id, t) ← t.openForAppending path
  .ok (id, t.setContent id [])

/-- Takes the entries from all directories below a node, which lose their names with it. -/
def clearBelow : Nat → FileTree → NodeId → FileTree
  | 0, t, _ => t
  | fuel + 1, t, id =>
    match t.nodes[id]? with
    | some (.directory parent entries) =>
      entries.foldl (fun t entry => clearBelow fuel t entry.2) (t.setNode id (.directory parent []))
    | _ => t

/-- Removes a directory with all below it. -/
def removeTree (t : FileTree) (path : String) : Except Errno FileTree := do
  let id ← t.resolve path
  let (parent, name) ← t.locate path
  .ok ((clearBelow (t.nodes.size + 1) t id).dropName parent name)

/-- Removes the name of a file. -/
def removeFile (t : FileTree) (path : String) : Except Errno FileTree := do
  let id ← t.resolve path
  if t.isDirectory id then .error .eisdir
  else
    let (parent, name) ← t.locate path
    .ok (t.dropName parent name)

/-- Removes a directory that is empty. -/
def removeDirectory (t : FileTree) (path : String) : Except Errno FileTree := do
  let id ← t.resolve path
  match t.nodes[id]? with
  | some (.directory _ []) =>
    let (parent, name) ← t.locate path
    .ok (t.dropName parent name)
  | some (.directory _ _) => .error .enotempty
  | _ => .error .enotdir

/-- The names in a directory, in order. -/
def entryNames (t : FileTree) (id : NodeId) : List String :=
  match t.nodes[id]? with
  | some (.directory _ entries) => (entries.map (·.1)).mergeSort fun a b => decide (a ≤ b)
  | _ => []

/-- Puts a text into a file, making the directories above it; a path that cannot be written to
is left alone. -/
def addFile (t : FileTree) (path : String) (bytes : Bytes) : FileTree :=
  let t :=
    match Path.parent? path with
    | some parent => (t.makeDirectories parent).toOption.getD t
    | none => t
  match t.openForWriting path with
  | .ok (id, t) => t.setContent id bytes
  | .error _ => t

/-- Makes a directory and those above it; a path that cannot be made is left alone. -/
def addDirectory (t : FileTree) (path : String) : FileTree :=
  (t.makeDirectories path).toOption.getD t

/-- The directories that every system has. -/
def standard : FileTree :=
  ["/bin", "/dev", "/etc", "/home", "/opt", "/proc", "/root", "/run", "/sbin", "/srv", "/sys",
    "/tmp", "/usr/bin", "/usr/lib", "/usr/local/bin", "/usr/sbin", "/usr/share", "/var/log",
    "/var/tmp"].foldl addDirectory empty

end FileTree

end LineShell
