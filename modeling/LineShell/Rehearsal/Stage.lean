import LineShell.File.Tree
import LineShell.Prompt
import LineShell.Rehearsal

namespace LineShell

/-!
# The stage of a rehearsal

A rehearsal of whole lines needs a working directory beside the recorder: `cd` moves it for real,
in a tree of directories of its own.

* `RehearsalStage` — a recorder and a tree.
-/

/-- A recorder and the directories that `cd` moves in. -/
structure RehearsalStage where
  recorder : Recorder
  tree : FileTree

/-- A rehearsal runs processes on its recorder and changes directories in its tree. -/
instance : System RehearsalStage where
  fork process s :=
    let forked := s.recorder.fork process
    (forked.1, { s with recorder := forked.2 })
  wait pid s :=
    let waited := s.recorder.wait pid
    (waited.1, { s with recorder := waited.2 })
  changeDirectory path s :=
    match s.tree.changeDirectory path with
    | .ok tree => (.ok (), { s with tree := tree })
    | .error fault => (.error fault, s)
  note notice s := { s with recorder := s.recorder.note notice }

instance : HasDirectory RehearsalStage where
  currentDirectory? s := s.tree.currentDirectory?

end LineShell
