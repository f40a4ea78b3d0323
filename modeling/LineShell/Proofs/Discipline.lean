import LineShell.Execution

namespace LineShell

/-!
# Disciplines

Much of what a process does shows from its tree of calls alone: whether it waits for its children,
closes its pipes, warns of what went wrong.  The calls that give a child its standard streams have
no part in this.  What holds of the process that follows them, and of one that fails, holds of the
child from its start.

* `Process.Discipline` — a property of processes that these calls hand on.
* `Process.Discipline.attach`, `Process.Discipline.openOnto` — so a child has it that gets its
  streams from a pipe or a file.
-/

/-- A property of processes that holds of those that fail, and that is handed on by a call that
moves or closes a descriptor or opens a file, if it holds whatever comes of the call. -/
structure Process.Discipline (P : Process → Prop) : Prop where
  fail : ∀ failure, P (.fail failure)
  dup2 : ∀ source target next, (∀ result, P (next result)) → P (.dup2 source target next)
  close : ∀ descriptor next, (∀ result, P (next result)) → P (.close descriptor next)
  openFile : ∀ path direction next, (∀ result, P (next result)) → P (.openFile path direction next)

namespace Process.Discipline

variable {P : Process → Prop} {next : Process}

/-- A disciplined process stays so with a descriptor moved before it. -/
theorem moveTo (hP : Discipline P) (source target : Descriptor) (h : P next) :
    P (moveTo source target next) := by
  unfold LineShell.moveTo
  split
  · exact h
  · refine hP.dup2 _ _ _ ?_
    rintro (e | _)
    · exact hP.fail _
    · refine hP.close _ _ ?_
      rintro (e | _)
      · exact hP.fail _
      · exact h

/-- A disciplined process stays so with an end of a pipe attached before it. -/
theorem attach (hP : Discipline P) (unused used target : Descriptor) (h : P next) :
    P (attach unused used target next) := by
  refine hP.close _ _ ?_
  rintro (e | _)
  · exact hP.fail _
  · exact hP.moveTo used target h

/-- A disciplined process stays so with a file opened before it. -/
theorem openOnto (hP : Discipline P) (path : String) (direction : Direction) (h : P next) :
    P (openOnto path direction next) := by
  refine hP.openFile _ _ _ ?_
  rintro (e | descriptor)
  · exact hP.fail _
  · exact hP.moveTo descriptor direction.stream h

end Process.Discipline

end LineShell
