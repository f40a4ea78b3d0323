import LineShell.Execution
import LineShell.Proofs.Trace.Conduct

namespace LineShell

/-!
# Processes that fail once

A call that fails ends its process: it reports the failure, cleans up and ends with the code of
the failure.  Whether a process does so shows from its tree of calls alone.

* `Action.failure?`, `Action.failureCode?` — which calls are fatal when they fail, and with which
  code.
* `Process.Heeds` — a process that ends, in that way, when a call is fatal.
* `Command.process_heeds` — the process of every command does so.
* `Heeded`, `Process.Conduct.heeded` — what this says of the calls that such a process makes.
-/

/-! ### Fatal calls -/

/-- The failure of a process whose call has failed, if that is fatal; `piped` says whether the
process has made a pipe, whose ends it may fail to close. -/
def Action.failure? (piped : Bool) : Action → Option Failure
  | .fork (.error e) => some (.call .fork e)
  | .pipe (.error e) => some (.call .pipe e)
  | .dup2 _ _ (.error e) => some (.call .dup2 e)
  | .close _ (.error e) => if piped then none else some (.call .close e)
  | .openFile path direction (.error e) => some (.file path direction e)
  | .exec argv (.error e) => some (.exec (argv.headD "") e)
  | .wait _ (.error e) => some (.call .waitpid e)
  | _ => none

/-- The code that a process has to end with when this call of it has failed. -/
def Action.failureCode? (piped : Bool) : Action → Option Int
  | .exec _ (.error e) => some (if e = Errno.enoent then 127 else 126)
  | .openFile _ _ (.error _) => some 1
  | .fork (.error _) | .pipe (.error _) | .dup2 _ _ (.error _) | .wait _ (.error _) => some 2
  | .close _ (.error _) => if piped then none else some 2
  | _ => none

/-- The code of a failed call is that of the failure which it brings about. -/
theorem Action.failureCode?_eq (piped : Bool) (a : Action) :
    a.failureCode? piped = (a.failure? piped).map Failure.exitCode := by
  cases a with
  | exit | note => rfl
  | fork result | pipe result | dup2 _ _ result | openFile _ _ result | exec _ result
  | wait _ result => cases result <;> rfl
  | close _ result => cases result <;> cases piped <;> rfl

/-- Whether a call has made a pipe. -/
def Action.makesPipe : Action → Bool
  | .pipe (.ok _) => true
  | _ => false

/-- The failure that the first fatal call of a process brings about. -/
def fatal? : Bool → List Action → Option Failure
  | _, [] => none
  | piped, a :: as => (a.failure? piped).or (fatal? (a.makesPipe || piped) as)

/-- Behind the first fatal call stands what may follow it. -/
theorem exists_of_fatal? {piped : Bool} {own : List Action} {failure : Failure}
    (h : fatal? piped own = some failure) :
    ∃ before a after, own = before ++ a :: after ∧
      a.failure? (before.any Action.makesPipe || piped) = some failure := by
  induction own generalizing piped with
  | nil => cases h
  | cons a own ih =>
    rw [fatal?, Option.or_eq_some_iff] at h
    rcases h with ha | ⟨-, h⟩
    · exact ⟨[], a, own, rfl, ha⟩
    · obtain ⟨before, b, after, rfl, hb⟩ := ih h
      refine ⟨a :: before, b, after, rfl, ?_⟩
      simpa [Bool.or_assoc, Bool.or_comm, Bool.or_left_comm] using hb

/-- What is left for a process to do that has failed: to close, to wait and to note. -/
def Action.WindsUp : Action → Prop
  | .close _ _ | .wait _ _ | .note _ => True
  | _ => False

/-- The record that a call adds to the log, if it is of an error. -/
def Action.error? : Action → Option Notice
  | .note notice => if notice.level = .error then some notice else none
  | _ => none

/-- The records of errors that calls add to the log. -/
def errorsOf (as : List Action) : List Notice :=
  as.filterMap Action.error?

/-- A note of another level is no error. -/
theorem Action.error?_note {notice : Notice} (h : notice.level ≠ .error) :
    (Action.note notice).error? = none :=
  if_neg h

/-- A call that is no error adds none. -/
theorem errorsOf_cons {a : Action} {as : List Action} (h : a.error? = none) :
    errorsOf (a :: as) = errorsOf as :=
  List.filterMap_cons_none h

/-! ### The discipline -/

/-- The process has failed: it closes and waits only, reports the failure and ends with its code.
Where it closes or waits, which may fail too, the code is that of such a failure. -/
def Process.Doomed (failure : Failure) : Process → Prop
  | .close descriptor next =>
    failure.exitCode = 2 ∧
      (∀ e, ∃ rest, next (.error e) = .note (.closeFailed descriptor e) rest) ∧
      ∀ result, (next result).Doomed failure
  | .wait _ next => failure.exitCode = 2 ∧ ∀ result, (next result).Doomed failure
  | .note notice next =>
    (notice = .failed failure ∧ next = .report failure (.exit failure.exitCode)) ∨
      (notice.level ≠ .error ∧ next.Doomed failure)
  | _ => False

/-- A process that has not failed yet, and that has made a pipe or not, heeds its failures: behind
each fatal call it reports the failure of that call.  The end of a pipe that it cannot close is
only noted, and having no words to run is a failure without a call. -/
def Process.Heeds : Bool → Process → Prop
  | _, .exit _ => True
  | piped, .fork _ next =>
    (∀ e, (next (.error e)).Doomed (.call .fork e)) ∧ ∀ pid, (next (.ok pid)).Heeds piped
  | _, .pipe next =>
    (∀ e, (next (.error e)).Doomed (.call .pipe e)) ∧ ∀ ends, (next (.ok ends)).Heeds true
  | piped, .dup2 _ _ next =>
    (∀ e, (next (.error e)).Doomed (.call .dup2 e)) ∧ ∀ result, (next (.ok result)).Heeds piped
  | false, .close _ next =>
    (∀ e, (next (.error e)).Doomed (.call .close e)) ∧ ∀ result, (next (.ok result)).Heeds false
  | true, .close descriptor next =>
    (∀ e, ∃ rest, next (.error e) = .note (.closeFailed descriptor e) rest) ∧
      ∀ result, (next result).Heeds true
  | piped, .openFile path direction next =>
    (∀ e, (next (.error e)).Doomed (.file path direction e)) ∧
      ∀ descriptor, (next (.ok descriptor)).Heeds piped
  | _, .exec argv next => ∀ e, (next e).Doomed (.exec (argv.headD "") e)
  | piped, .wait _ next =>
    (∀ e, (next (.error e)).Doomed (.call .waitpid e)) ∧
      ∀ status, (next (.ok status)).Heeds piped
  | piped, .note notice next =>
    (notice = .failed .emptyCommand ∧ next = .report .emptyCommand (.exit 2)) ∨
      (notice.level ≠ .error ∧ next.Heeds piped)
  | piped, .report _ next => next.Heeds piped

variable {next : Process} {piped : Bool}

/-! ### The parts of a process -/

/-- A process that fails reports its failure and ends. -/
theorem fail_doomed (failure : Failure) : (Process.fail failure).Doomed failure :=
  .inl ⟨rfl, rfl⟩

/-- A failure to move a descriptor is heeded. -/
theorem moveTo_heeds (source target : Descriptor) (h : next.Heeds false) :
    (moveTo source target next).Heeds false := by
  unfold moveTo
  split
  · exact h
  · exact ⟨fun _ => fail_doomed _, fun _ => ⟨fun _ => fail_doomed _, fun _ => h⟩⟩

/-- A failure to attach an end of a pipe is heeded. -/
theorem attach_heeds (unused used target : Descriptor) (h : next.Heeds false) :
    (attach unused used target next).Heeds false :=
  ⟨fun _ => fail_doomed _, fun _ => moveTo_heeds used target h⟩

/-- A failure to open a file in the place of a stream is heeded. -/
theorem openOnto_heeds (path : String) (direction : Direction) (h : next.Heeds false) :
    (openOnto path direction next).Heeds false :=
  ⟨fun _ => fail_doomed _, fun descriptor => moveTo_heeds descriptor direction.stream h⟩

/-- A doomed process may still close an end of its pipe. -/
theorem closeEnd_doomed {failure : Failure} (descriptor : Descriptor) (code : failure.exitCode = 2)
    (h : next.Doomed failure) : (closeEnd descriptor next).Doomed failure := by
  refine ⟨code, fun _ => ⟨next, rfl⟩, ?_⟩
  rintro (e | _)
  · exact .inr ⟨by simp [Notice.level], h⟩
  · exact h

/-- An end of a pipe that cannot be closed is noted, and nothing fails. -/
theorem closeEnd_heeds (descriptor : Descriptor) (h : next.Heeds true) :
    (closeEnd descriptor next).Heeds true := by
  refine ⟨fun _ => ⟨next, rfl⟩, ?_⟩
  rintro (e | _)
  · exact .inr ⟨by simp [Notice.level], h⟩
  · exact h

theorem closeEnds_doomed {failure : Failure} (ends : PipeEnds) (code : failure.exitCode = 2)
    (h : next.Doomed failure) : (closeEnds ends next).Doomed failure :=
  closeEnd_doomed ends.read code (closeEnd_doomed ends.write code h)

theorem closeEnds_heeds (ends : PipeEnds) (h : next.Heeds true) :
    (closeEnds ends next).Heeds true :=
  closeEnd_heeds ends.read (closeEnd_heeds ends.write h)

/-- A doomed process may note how a child ended. -/
theorem noteEnd_doomed {failure : Failure} (status : ChildStatus) (h : next.Doomed failure) :
    (noteEnd status next).Doomed failure := by
  unfold noteEnd
  split
  · exact h
  · exact .inr ⟨by simp [Notice.level], h⟩

/-- A note about the end of a child is no failure. -/
theorem noteEnd_heeds (status : ChildStatus) (h : next.Heeds piped) :
    (noteEnd status next).Heeds piped := by
  unfold noteEnd
  split
  · exact h
  · cases piped <;> exact .inr ⟨by simp [Notice.level], h⟩

/-- A program that cannot be launched, or that has no words, is a failure that is heeded. -/
theorem launch_heeds (aliases : AliasTable) (argv : List String) :
    (launch aliases argv).Heeds false := by
  unfold launch
  split
  · exact .inl ⟨rfl, rfl⟩
  · exact .inr ⟨by simp [Notice.level], fun _ => fail_doomed _⟩

/-- A pipe that could start one child only is doomed by the fork that failed, even if the wait fails
as well. -/
theorem abandonPipe_doomed (left : Pid) (errno : Errno) :
    (abandonPipe left errno).Doomed (.call .fork errno) := by
  refine ⟨rfl, ?_⟩
  rintro (e | status)
  · exact fail_doomed _
  · exact noteEnd_doomed status (fail_doomed _)

/-- Failed waits for the sides of a pipe are heeded. -/
theorem awaitPipe_heeds (left right : Pid) : (awaitPipe left right).Heeds true := by
  -- behind a wait that fails the other one is still made
  refine ⟨fun _ => ⟨rfl, fun _ => fail_doomed _⟩, fun leftStatus => ?_⟩
  refine ⟨fun _ => fail_doomed _, fun rightStatus => ?_⟩
  exact noteEnd_heeds leftStatus (noteEnd_heeds rightStatus trivial)

/-- A failed wait for the child of a redirect is heeded. -/
theorem awaitRedirect_heeds (pid : Pid) : (awaitRedirect pid).Heeds false :=
  ⟨fun _ => fail_doomed _, fun status => noteEnd_heeds status trivial⟩

/-! ### Whole processes -/

/-- **Commands heed failures.** The process of a command ends as its first fatal call says. -/
theorem Command.process_heeds (aliases : AliasTable) (command : Command) :
    (command.process aliases).Heeds false := by
  cases command with
  | exec argv => exact launch_heeds aliases argv
  | pipe left right =>
    refine ⟨fun _ => fail_doomed _, fun ends => ?_⟩
    refine ⟨fun e => closeEnds_doomed ends rfl (fail_doomed _), fun leftPid => ?_⟩
    refine ⟨fun e => closeEnds_doomed ends rfl (abandonPipe_doomed leftPid e), fun rightPid => ?_⟩
    exact closeEnds_heeds ends (.inr ⟨by simp [Notice.level], awaitPipe_heeds leftPid rightPid⟩)
  | redirect inner direction path =>
    refine ⟨fun _ => fail_doomed _, fun pid => ?_⟩
    exact .inr ⟨by simp [Notice.level], awaitRedirect_heeds pid⟩

/-! ### What the calls show -/

/-- Calls behind which nothing else is done than a failed call asks for. -/
structure Orderly (piped : Bool) (own : List Action) (code : Int) : Prop where
  /-- Behind a fatal call the process winds up and ends with the code of the failure. -/
  fatal : ∀ before a after failure, own = before ++ a :: after →
    a.failure? (before.any Action.makesPipe || piped) = some failure →
    code = failure.exitCode ∧ ∀ x ∈ after, x.WindsUp
  /-- The end of a pipe that cannot be closed is noted. -/
  warned : ∀ before descriptor e after, own = before ++ .close descriptor (.error e) :: after →
    (before.any Action.makesPipe || piped) = true →
    ∃ rest, after = .note (.closeFailed descriptor e) :: rest

namespace Orderly

variable {own : List Action} {a : Action} {code : Int}

theorem nil : Orderly piped [] code where
  fatal before a after failure h := by simp at h
  warned before descriptor e after h := by simp at h

/-- A call may stand in front if the others follow from it as its own failure asks. -/
theorem cons (h : Orderly (a.makesPipe || piped) own code)
    (fatal : ∀ failure, a.failure? piped = some failure →
      code = failure.exitCode ∧ ∀ x ∈ own, x.WindsUp)
    (warned : ∀ descriptor e, a = .close descriptor (.error e) → piped = true →
      ∃ rest, own = .note (.closeFailed descriptor e) :: rest) :
    Orderly piped (a :: own) code where
  fatal before b after failure heq hb := by
    rcases List.cons_eq_append_iff.1 heq with ⟨rfl, heq⟩ | ⟨before, rfl, rfl⟩
    · cases heq
      exact fatal failure (by simpa using hb)
    · exact h.fatal before b after failure rfl
        (by simpa [Bool.or_assoc, Bool.or_comm, Bool.or_left_comm] using hb)
  warned before descriptor e after heq hpiped := by
    rcases List.cons_eq_append_iff.1 heq with ⟨rfl, heq⟩ | ⟨before, rfl, rfl⟩
    · cases heq
      exact warned descriptor e rfl (by simpa using hpiped)
    · exact h.warned before descriptor e after rfl
        (by simpa [Bool.or_assoc, Bool.or_comm, Bool.or_left_comm] using hpiped)

/-- A call that is not fatal and closes nothing in vain. -/
theorem cons_of_none (h : Orderly (a.makesPipe || piped) own code)
    (harmless : a.failure? piped = none)
    (closes : ∀ descriptor e, a ≠ .close descriptor (.error e)) : Orderly piped (a :: own) code :=
  h.cons (fun failure heq => by rw [harmless] at heq; cases heq)
    fun descriptor e heq => absurd heq (closes descriptor e)

end Orderly

/-- Calls of a process that heeds its failures: it also reports the first one, and nothing else. -/
structure Heeded (piped : Bool) (own : List Action) (code : Int) : Prop extends
    Orderly piped own code where
  errors : ∀ failure, fatal? piped own = some failure → errorsOf own = [.failed failure]

/-- A call that is not fatal, reports nothing and closes nothing in vain. -/
theorem Heeded.cons_of_none {own : List Action} {a : Action} {code : Int}
    (h : Heeded (a.makesPipe || piped) own code) (harmless : a.failure? piped = none)
    (quiet : a.error? = none) (closes : ∀ descriptor e, a ≠ .close descriptor (.error e)) :
    Heeded piped (a :: own) code where
  toOrderly := h.toOrderly.cons_of_none harmless closes
  errors failure hf := by
    rw [fatal?, harmless, Option.none_or] at hf
    rw [errorsOf_cons quiet, h.errors failure hf]

/-- The first fatal call decides the code. -/
theorem Heeded.code_eq {own : List Action} {code : Int} {failure : Failure}
    (h : Heeded piped own code) (hf : fatal? piped own = some failure) :
    code = failure.exitCode := by
  obtain ⟨before, a, after, rfl, ha⟩ := exists_of_fatal? hf
  exact (h.fatal before a after failure rfl ha).1

/-- Closing and waiting in vain both mean the same code. -/
theorem Action.failure?_close {descriptor : Descriptor} {result : Except Errno Unit}
    {failure : Failure} (h : (Action.close descriptor result).failure? piped = some failure) :
    failure.exitCode = 2 := by
  cases result <;> cases piped <;> cases h
  rfl

/-- Every failed wait decides the same code. -/
theorem Action.failure?_wait {pid : Pid} {result : Except Errno ChildStatus} {failure : Failure}
    (h : (Action.wait pid result).failure? piped = some failure) : failure.exitCode = 2 := by
  cases result <;> cases h
  rfl

namespace Process.Conduct

variable {p : Process} {own : List Action} {children : List (Pid × Process)} {code : Int}

/-- What a process does that has failed: it starts nothing and reports that failure only. -/
theorem doomed {failure : Failure} (h : p.Conduct own children code) (doomed : p.Doomed failure) :
    code = failure.exitCode ∧ children = [] ∧ errorsOf own = [.failed failure] ∧
      (∀ x ∈ own, x.WindsUp) ∧ ∀ piped, Orderly piped own code := by
  induction p generalizing own with
  | close descriptor next ih =>
    obtain ⟨two, warned, doomed⟩ := doomed
    obtain ⟨result, own', rfl, rest⟩ := conduct_close.1 h
    obtain ⟨rfl, rfl, errors, winds, orderly⟩ := ih result rest (doomed result)
    refine ⟨rfl, rfl, errors, List.forall_mem_cons.2 ⟨trivial, winds⟩, fun piped => ?_⟩
    refine (orderly _).cons (fun f hf => ⟨?_, winds⟩) ?_
    · rw [two, Action.failure?_close hf]
    · rintro _ e ⟨⟩ -
      obtain ⟨q, hq⟩ := warned e
      rw [hq, conduct_note] at rest
      obtain ⟨own'', rfl, -⟩ := rest
      exact ⟨own'', rfl⟩
  | wait pid next ih =>
    obtain ⟨two, doomed⟩ := doomed
    obtain ⟨result, own', rfl, rest⟩ := conduct_wait.1 h
    obtain ⟨rfl, rfl, errors, winds, orderly⟩ := ih result rest (doomed result)
    refine ⟨rfl, rfl, errors, List.forall_mem_cons.2 ⟨trivial, winds⟩, fun piped => ?_⟩
    refine (orderly _).cons (fun f hf => ⟨?_, winds⟩) (by simp)
    rw [two, Action.failure?_wait hf]
  | note notice next ih =>
    obtain ⟨own', rfl, rest⟩ := conduct_note.1 h
    rcases doomed with ⟨rfl, rfl⟩ | ⟨level, doomed⟩
    · -- the report itself
      obtain ⟨rfl, rfl, rfl⟩ := conduct_exit.1 (conduct_report.1 rest)
      refine ⟨rfl, rfl, rfl, by simp [Action.WindsUp], fun piped => ?_⟩
      exact Orderly.nil.cons_of_none rfl (by simp)
    · obtain ⟨rfl, rfl, errors, winds, orderly⟩ := ih rest doomed
      refine ⟨rfl, rfl, ?_, List.forall_mem_cons.2 ⟨trivial, winds⟩, fun piped => ?_⟩
      · rw [errorsOf_cons (Action.error?_note level), errors]
      · exact (orderly _).cons_of_none rfl (by simp)
  | _ => cases doomed

/-- A fatal call and what follows it. -/
theorem heeded_fatal {failure : Failure} {a : Action} (h : p.Conduct own children code)
    (doomed : p.Doomed failure) (fatal : a.failure? piped = some failure)
    (quiet : a.error? = none)
    (closes : ∀ descriptor e, a = .close descriptor (.error e) → piped = false) :
    Heeded piped (a :: own) code := by
  obtain ⟨rfl, -, errors, winds, orderly⟩ := h.doomed doomed
  refine ⟨(orderly _).cons (fun f hf => ?_) fun descriptor e heq hpiped => ?_, fun f hf => ?_⟩
  · cases fatal.symm.trans hf
    exact ⟨rfl, winds⟩
  · rw [closes descriptor e heq] at hpiped
    cases hpiped
  · rw [fatal?, fatal, Option.some_or] at hf
    cases hf
    rw [errorsOf_cons quiet, errors]

/-- **Failures are heeded.** A process that heeds its failures ends, on every way through its tree
of calls, as the first fatal call says. -/
theorem heeded (h : p.Conduct own children code) (heeds : p.Heeds piped) :
    Heeded piped own code := by
  induction p generalizing piped own children with
  | exit c =>
    obtain ⟨rfl, -, rfl⟩ := conduct_exit.1 h
    exact ⟨.nil, by simp [fatal?]⟩
  | fork child next _ ih =>
    simp only [Heeds] at heeds
    rcases conduct_fork.1 h with ⟨e, own', rfl, rest⟩ | ⟨pid, own', children', rfl, rfl, rest⟩
    · exact rest.heeded_fatal (heeds.1 e) rfl rfl (by simp)
    · exact Heeded.cons_of_none (ih (.ok pid) rest (heeds.2 pid)) rfl rfl (by simp)
  | pipe next ih =>
    obtain ⟨e | ends, own', rfl, rest⟩ := conduct_pipe.1 h
    · exact rest.heeded_fatal (heeds.1 e) rfl rfl (by simp)
    · exact Heeded.cons_of_none (ih (.ok ends) rest (heeds.2 ends)) rfl rfl (by simp)
  | dup2 source target next ih =>
    simp only [Heeds] at heeds
    obtain ⟨e | done, own', rfl, rest⟩ := conduct_dup2.1 h
    · exact rest.heeded_fatal (heeds.1 e) rfl rfl (by simp)
    · exact Heeded.cons_of_none (ih (.ok done) rest (heeds.2 done)) rfl rfl (by simp)
  | close descriptor next ih =>
    obtain ⟨result, own', rfl, rest⟩ := conduct_close.1 h
    cases piped with
    | false =>
      rcases result with e | done
      · exact rest.heeded_fatal (heeds.1 e) rfl rfl (by simp)
      · exact Heeded.cons_of_none (ih (.ok done) rest (heeds.2 done)) rfl rfl (by simp)
    | true =>
      -- a failure is no more than noted
      have heeded := ih result rest (heeds.2 result)
      rcases result with e | done
      · obtain ⟨q, hq⟩ := heeds.1 e
        rw [hq, conduct_note] at rest
        obtain ⟨own'', rfl, -⟩ := rest
        refine ⟨Orderly.cons heeded.toOrderly (by simp [Action.failure?]) ?_, heeded.errors⟩
        rintro _ _ ⟨⟩ -
        exact ⟨own'', rfl⟩
      · exact Heeded.cons_of_none heeded rfl rfl (by simp)
  | openFile path direction next ih =>
    simp only [Heeds] at heeds
    obtain ⟨e | descriptor, own', rfl, rest⟩ := conduct_openFile.1 h
    · exact rest.heeded_fatal (heeds.1 e) rfl rfl (by simp)
    · exact Heeded.cons_of_none (ih (.ok descriptor) rest (heeds.2 descriptor)) rfl rfl (by simp)
  | exec argv next ih =>
    simp only [Heeds] at heeds
    rcases conduct_exec.1 h with ⟨rfl, rfl⟩ | ⟨e, own', rfl, rest⟩
    · exact Heeded.cons_of_none ⟨.nil, by simp [fatal?]⟩ rfl rfl (by simp)
    · exact rest.heeded_fatal (heeds e) rfl rfl (by simp)
  | wait pid next ih =>
    simp only [Heeds] at heeds
    obtain ⟨e | status, own', rfl, rest⟩ := conduct_wait.1 h
    · exact rest.heeded_fatal (heeds.1 e) rfl rfl (by simp)
    · exact Heeded.cons_of_none (ih (.ok status) rest (heeds.2 status)) rfl rfl (by simp)
  | note notice next ih =>
    simp only [Heeds] at heeds
    obtain ⟨own', rfl, rest⟩ := conduct_note.1 h
    rcases heeds with ⟨rfl, rfl⟩ | ⟨level, heeds⟩
    · obtain ⟨rfl, rfl, rfl⟩ := conduct_exit.1 (conduct_report.1 rest)
      exact ⟨Orderly.nil.cons_of_none rfl (by simp), by simp [fatal?, Action.failure?]⟩
    · exact Heeded.cons_of_none (ih rest heeds) rfl (Action.error?_note level) (by simp)
  | report failure next ih =>
    simp only [Heeds] at heeds
    exact ih (conduct_report.1 h) heeds

end Process.Conduct

end LineShell
