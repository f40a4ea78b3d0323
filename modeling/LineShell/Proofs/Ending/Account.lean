import LineShell.Proofs.Discipline
import LineShell.Proofs.Ending.Discipline

namespace LineShell

/-!
# What the calls of a process tell

The code of a process can be read off its own calls: they say which program took its place, which
call was fatal, and how its children ended.

* `Account`, `account` — what calls tell.
* `verdict?`, `blame?` — the code that an account decides, and the failure that it holds.
* `Realizer` — the processes that realize a node of a command, with their standard streams.
* `Course`, `Realizer.course` — all that such a process can do: what it starts, what its calls tell
  and how it ends.
-/

/-! ### Accounts -/

/-- The child that a call has started. -/
def Action.child? : Action → Option Pid
  | .fork (.ok pid) => some pid
  | _ => none

/-- The answer that a call has got about a child. -/
def Action.status? : Action → Option (Pid × ChildStatus)
  | .wait pid (.ok status) => some (pid, status)
  | _ => none

/-- The code of the program that a call has put in the place of the process. -/
def Action.launched? : Action → Option Int
  | .exec _ (.ok code) => some code
  | _ => none

/-- The program that a call tries to put in the place of the process. -/
def Action.attempt? : Action → Option (List String)
  | .exec argv _ => some argv
  | _ => none

/-- What the calls of a process tell: the failure that the first fatal call brings about, the
programs that were to take the place of the process, the code of the one that did, the children,
what was heard of them, and the errors in the log. -/
structure Account where
  failure : Option Failure := none
  attempts : List (List String) := []
  launched : Option Int := none
  children : List Pid := []
  statuses : List (Pid × ChildStatus) := []
  errors : List Notice := []

/-- What the calls of a process tell that has made a pipe before, or not. -/
def account (piped : Bool) (own : List Action) : Account where
  failure := fatal? piped own
  attempts := own.filterMap Action.attempt?
  launched := own.findSome? Action.launched?
  children := own.filterMap Action.child?
  statuses := own.filterMap Action.status?
  errors := errorsOf own

/-- The account with one more child in front. -/
def Account.addChild (told : Account) (pid : Pid) : Account :=
  { told with children := pid :: told.children }

/-- The account with one more answer in front. -/
def Account.addStatus (told : Account) (pid : Pid) (status : ChildStatus) : Account :=
  { told with statuses := (pid, status) :: told.statuses }

/-- A fork that succeeds tells of one more child. -/
theorem account_fork (piped : Bool) (pid : Pid) (own : List Action) :
    account piped (.fork (.ok pid) :: own) = (account piped own).addChild pid :=
  rfl

/-- A wait that succeeds tells of one more answer. -/
theorem account_wait (piped : Bool) (pid : Pid) (status : ChildStatus) (own : List Action) :
    account piped (.wait pid (.ok status) :: own) = (account piped own).addStatus pid status :=
  rfl

/-- A pipe tells nothing, but what comes behind it is judged otherwise. -/
theorem account_pipe (piped : Bool) (ends : PipeEnds) (own : List Action) :
    account piped (.pipe (.ok ends) :: own) = account true own :=
  rfl

/-- A note that is no error tells nothing. -/
theorem account_note {notice : Notice} (piped : Bool) (level : notice.level ≠ .error)
    (own : List Action) : account piped (.note notice :: own) = account piped own := by
  have errors : errorsOf (.note notice :: own) = errorsOf own :=
    errorsOf_cons (Action.error?_note level)
  rw [account, errors]
  rfl

/-- Only a wait that succeeds tells of an answer. -/
theorem Action.eq_of_status? {a : Action} {pid : Pid} {status : ChildStatus}
    (h : a.status? = some (pid, status)) : a = .wait pid (.ok status) := by
  cases a with
  | wait _ result =>
    cases result <;> cases h
    rfl
  | _ => cases h

/-- A code of a program comes from a call that put the program in place. -/
theorem Action.exists_exec_of_launched {own : List Action} {c : Int}
    (h : own.findSome? Action.launched? = some c) : ∃ argv, .exec argv (.ok c) ∈ own := by
  obtain ⟨a, ha, hc⟩ := List.exists_of_findSome?_eq_some h
  cases a with
  | exec argv result =>
    cases result <;> cases hc
    exact ⟨argv, ha⟩
  | _ => cases hc

/-- What a process does that has failed is no attempt to run a program. -/
theorem account_of_windsUp {own : List Action} (h : ∀ a ∈ own, a.WindsUp) :
    (account false own).attempts = [] ∧ (account false own).launched = none := by
  constructor
  · refine List.filterMap_eq_nil_iff.2 fun a ha => ?_
    have := h a ha
    cases a with
    | exec => cases this
    | _ => rfl
  · refine List.findSome?_eq_none_iff.2 fun a ha => ?_
    have := h a ha
    cases a with
    | exec => cases this
    | _ => rfl

/-- A program that has no word but blank ones once its alias is replaced. -/
def Command.isWordless (aliases : AliasTable) : Command → Bool
  | .exec argv => (aliases.expand argv).all isAllSpaces
  | _ => false

/-- A program is wordless when there are no words to start it with. -/
theorem Command.isWordless_exec {aliases : AliasTable} {argv : List String} :
    (exec argv).isWordless aliases = true ↔ launchWords aliases argv = [] :=
  launchWords_eq_nil_iff.symm

/-- The failure of a process that realizes a node: that of its first fatal call, or else the want
of words. -/
def blame? (aliases : AliasTable) (node : Command) (told : Account) : Option Failure :=
  told.failure.or (if node.isWordless aliases then some .emptyCommand else none)

/-- The code that a process that realizes a node has to end with. -/
def verdict? (aliases : AliasTable) (node : Command) (told : Account) : Option Int :=
  match told.launched, blame? aliases node told, node, told.statuses with
  | some code, _, _, _ => some code
  | none, some failure, _, _ => some failure.exitCode
  | none, none, .redirect .., [(_, status)] => some status.code
  | none, none, .pipe .., [(_, left), (_, right)] => some (left.combine right).code
  | none, none, _, _ => none

/-! ### The parts of a process -/

/-- The nodes that the children of a node realize, in order. -/
def Command.parts : Command → List Command
  | .exec _ => []
  | .pipe left right => [left, right]
  | .redirect inner _ _ => [inner]

/-- A process that realizes a node, once it has got its standard streams. -/
inductive Realizer (aliases : AliasTable) (node : Command) : Process → Prop
  | plain : Realizer aliases node (node.process aliases)
  | attached {unused used target} :
      Realizer aliases node (attach unused used target (node.process aliases))
  | opened {path direction} :
      Realizer aliases node (openOnto path direction (node.process aliases))

variable {aliases : AliasTable} {node : Command} {p next : Process} {own : List Action}
  {children : List (Pid × Process)} {code : Int} {piped : Bool}

/-- What holds of the processes of commands holds of one that first gets its standard streams, if
the calls for that hand it on. -/
theorem Realizer.disciplined {P : Process → Prop} (h : Realizer aliases node p)
    (hP : Process.Discipline P) (plain : P (node.process aliases)) : P p := by
  cases h with
  | plain => exact plain
  | attached => exact hP.attach _ _ _ plain
  | opened => exact hP.openOnto _ _ plain

/-- A process that first gets its standard streams heeds its failures, too. -/
theorem Realizer.heeds (h : Realizer aliases node p) : p.Heeds false := by
  have plain := node.process_heeds aliases
  cases h with
  | plain => exact plain
  | attached => exact attach_heeds _ _ _ plain
  | opened => exact openOnto_heeds _ _ plain

/-- The calls lead on to a process, whose calls tell all there is to tell. -/
def LeadsTo (next : Process) (piped : Bool) (own : List Action) (children : List (Pid × Process))
    (code : Int) : Prop :=
  ∃ own', own' <:+ own ∧ account piped own = account piped own' ∧ next.Conduct own' children code

/-- The calls hold a fatal one, which brings about a failure of a kind and behind which no child is
started. -/
def Fails (kind : Failure → Prop) (piped : Bool) (own : List Action)
    (children : List (Pid × Process)) : Prop :=
  (∃ failure, kind failure ∧ (account piped own).failure = some failure) ∧ children = []

/-- A call that sets the process up has failed. -/
def Failure.IsCall : Failure → Prop
  | .call .. => True
  | _ => False

variable {kind : Failure → Prop}

/-- A process that is doomed by its first call starts no child. -/
theorem Process.Conduct.fails {failure : Failure} {a : Action} (h : p.Conduct own children code)
    (doomed : p.Doomed failure) (fatal : a.failure? piped = some failure) (is : kind failure) :
    Fails kind piped (a :: own) children := by
  refine ⟨⟨failure, is, ?_⟩, (h.doomed doomed).2.1⟩
  rw [account, fatal?, fatal, Option.some_or]

/-- What comes before a fatal call matters only as far as it is fatal. -/
theorem Fails.of_failure {own' : List Action} {piped' : Bool} (h : Fails kind piped' own' children)
    (told : (account piped own).failure = (account piped' own').failure) :
    Fails kind piped own children :=
  ⟨told ▸ h.1, h.2⟩

/-- A process leads to itself. -/
theorem LeadsTo.refl (h : next.Conduct own children code) : LeadsTo next piped own children code :=
  ⟨own, List.suffix_rfl, rfl, h⟩

/-- A call that tells nothing may stand in front. -/
theorem LeadsTo.cons {a : Action} (h : LeadsTo next piped own children code)
    (told : account piped (a :: own) = account piped own) :
    LeadsTo next piped (a :: own) children code := by
  obtain ⟨own', isSuffix, told', conduct⟩ := h
  exact ⟨own', isSuffix.trans (List.suffix_cons a own), told.trans told', conduct⟩

/-- When a descriptor is moved, a call fails or the process behind that goes on. -/
theorem moveTo_conduct {source target : Descriptor}
    (h : (moveTo source target next).Conduct own children code) :
    Fails Failure.IsCall false own children ∨ LeadsTo next false own children code := by
  unfold moveTo at h
  split at h
  · exact .inr (.refl h)
  · obtain ⟨e | _, own₁, rfl, moved⟩ := Process.conduct_dup2.1 h
    · exact .inl (moved.fails (fail_doomed _) rfl trivial)
    · obtain ⟨e | _, own₂, rfl, closed⟩ := Process.conduct_close.1 moved
      · have fails : Fails Failure.IsCall false (.close source (.error e) :: own₂) children :=
          closed.fails (fail_doomed _) rfl trivial
        exact .inl (fails.of_failure rfl)
      · exact .inr ((LeadsTo.refl closed).cons rfl |>.cons rfl)

/-- When an end of a pipe is attached, a call fails or the process behind that goes on. -/
theorem attach_conduct {unused used target : Descriptor}
    (h : (attach unused used target next).Conduct own children code) :
    Fails Failure.IsCall false own children ∨ LeadsTo next false own children code := by
  obtain ⟨e | _, own₁, rfl, closed⟩ := Process.conduct_close.1 h
  · exact .inl (closed.fails (fail_doomed _) rfl trivial)
  · have moved : (moveTo used target next).Conduct own₁ children code := closed
    exact (moveTo_conduct moved).imp (·.of_failure rfl) (·.cons rfl)

/-- Behind a file that could be opened only a call can fail. -/
theorem openOnto_conduct {path : String} {direction : Direction}
    (h : (openOnto path direction next).Conduct own children code) :
    (∃ e own', own = .openFile path direction (.error e) :: own' ∧
        (Process.fail (.file path direction e)).Conduct own' children code) ∨
      (∃ descriptor, .openFile path direction (.ok descriptor) ∈ own) ∧
        (Fails Failure.IsCall false own children ∨ LeadsTo next false own children code) := by
  obtain ⟨e | descriptor, own₁, rfl, opened⟩ := Process.conduct_openFile.1 h
  · exact .inl ⟨e, own₁, rfl, opened⟩
  · have moved : (moveTo descriptor direction.stream next).Conduct own₁ children code := opened
    refine .inr ⟨⟨descriptor, List.mem_cons_self⟩, ?_⟩
    exact (moveTo_conduct moved).imp (·.of_failure rfl) (·.cons rfl)

/-- A process that realizes a node either fails before it has got its standard streams or goes on as
the process of the node. -/
theorem Realizer.conduct (h : Realizer aliases node p) (conduct : p.Conduct own children code) :
    (∃ kind, Fails kind false own children) ∨
      LeadsTo (node.process aliases) false own children code := by
  cases h with
  | plain => exact .inr (.refl conduct)
  | attached => exact (attach_conduct conduct).imp_left fun fails => ⟨_, fails⟩
  | @opened path direction =>
    rcases openOnto_conduct conduct with ⟨e, own', rfl, failed⟩ | ⟨-, fails | leads⟩
    · exact .inl ⟨fun _ => True, failed.fails (fail_doomed _) rfl trivial⟩
    · exact .inl ⟨_, fails⟩
    · exact .inr leads

/-- Whether or not an end of a pipe can be closed, the process goes on. -/
theorem closeEnd_conduct {descriptor : Descriptor}
    (h : (closeEnd descriptor next).Conduct own children code) :
    LeadsTo next true own children code := by
  obtain ⟨e | _, own₁, rfl, closed⟩ := Process.conduct_close.1 h
  · obtain ⟨own₂, rfl, noted⟩ := Process.conduct_note.1 closed
    exact (LeadsTo.refl noted).cons rfl |>.cons rfl
  · exact (LeadsTo.refl closed).cons rfl

/-- It goes on behind both ends as well. -/
theorem closeEnds_conduct {ends : PipeEnds}
    (h : (closeEnds ends next).Conduct own children code) :
    LeadsTo next true own children code := by
  obtain ⟨own₁, suffix₁, told₁, closed⟩ := closeEnd_conduct h
  obtain ⟨own₂, suffix₂, told₂, closed'⟩ := closeEnd_conduct closed
  exact ⟨own₂, suffix₂.trans suffix₁, told₁.trans told₂, closed'⟩

/-- A note about the end of a child tells nothing, and the process goes on. -/
theorem noteEnd_conduct (piped : Bool) {status : ChildStatus}
    (h : (noteEnd status next).Conduct own children code) :
    LeadsTo next piped own children code := by
  unfold noteEnd at h
  split at h
  · exact .refl h
  · obtain ⟨own₁, rfl, noted⟩ := Process.conduct_note.1 h
    exact (LeadsTo.refl noted).cons rfl

/-- A process with a program to run tries to run it, unless it has no words for that. -/
theorem launch_conduct {argv : List String} (h : (launch aliases argv).Conduct own children code) :
    children = [] ∧ ((launchWords aliases argv = [] ∧ code = 2 ∧
        account false own = { errors := [.failed .emptyCommand] }) ∨
      ∃ program arguments, launchWords aliases argv = program :: arguments ∧
        (own = [.note (.launching (program :: arguments)),
            .exec (program :: arguments) (.ok code)] ∨
          ∃ e own', own = .note (.launching (program :: arguments)) ::
              .exec (program :: arguments) (.error e) :: own' ∧
            (Process.fail (.exec program e)).Conduct own' [] code)) := by
  unfold launch at h
  split at h
  case h_1 words =>
    obtain ⟨own₁, rfl, noted⟩ := Process.conduct_note.1 h
    obtain ⟨rfl, rfl, rfl⟩ := Process.conduct_exit.1 (Process.conduct_report.1 noted)
    exact ⟨rfl, .inl ⟨words, rfl, rfl⟩⟩
  case h_2 program arguments words =>
    obtain ⟨own₁, rfl, noted⟩ := Process.conduct_note.1 h
    rcases Process.conduct_exec.1 noted with ⟨rfl, rfl⟩ | ⟨e, own₂, rfl, failed⟩
    · exact ⟨rfl, .inr ⟨program, arguments, words, .inl rfl⟩⟩
    · -- the program could not take the place of the process, which then starts no child
      obtain rfl := (failed.doomed (fail_doomed _)).2.1
      exact ⟨rfl, .inr ⟨program, arguments, words, .inr ⟨e, own₂, rfl, failed⟩⟩⟩

/-- A process that waits for the child of a redirect fails with the wait or ends with the code that
it has heard. -/
theorem awaitRedirect_conduct {pid : Pid} (h : (awaitRedirect pid).Conduct own children code) :
    Fails Failure.IsCall false own children ∨ ∃ status, children = [] ∧ code = status.code ∧
      account false own = { statuses := [(pid, status)] } := by
  obtain ⟨e | status, own₁, rfl, waited⟩ := Process.conduct_wait.1 h
  · exact .inl (waited.fails (fail_doomed _) rfl trivial)
  · obtain ⟨own₂, -, told, exits⟩ := noteEnd_conduct false waited
    obtain ⟨rfl, rfl, rfl⟩ := Process.conduct_exit.1 exits
    refine .inr ⟨status, rfl, rfl, ?_⟩
    rw [account_wait, told]
    rfl

/-- A process that waits for both sides of a pipe fails with one of the waits or ends with the code
of the two statuses combined. -/
theorem awaitPipe_conduct {left right : Pid}
    (h : (awaitPipe left right).Conduct own children code) :
    Fails Failure.IsCall true own children ∨ ∃ leftStatus rightStatus, children = [] ∧
      code = (leftStatus.combine rightStatus).code ∧
      account true own = { statuses := [(left, leftStatus), (right, rightStatus)] } := by
  obtain ⟨leftResult, own₁, rfl, waited⟩ := Process.conduct_wait.1 h
  rcases leftResult with e | leftStatus
  · exact .inl (waited.fails ⟨rfl, fun _ => fail_doomed _⟩ rfl trivial)
  · obtain ⟨rightResult, own₂, rfl, waited'⟩ := Process.conduct_wait.1 waited
    rcases rightResult with e | rightStatus
    · have fails : Fails Failure.IsCall true (.wait right (.error e) :: own₂) children :=
        waited'.fails (fail_doomed _) rfl trivial
      exact .inl (fails.of_failure rfl)
    · obtain ⟨own₃, -, told, noted⟩ := noteEnd_conduct true waited'
      obtain ⟨own₄, -, told', exits⟩ := noteEnd_conduct true noted
      obtain ⟨rfl, rfl, rfl⟩ := Process.conduct_exit.1 exits
      refine .inr ⟨leftStatus, rightStatus, rfl, rfl, ?_⟩
      rw [account_wait, account_wait, told, told']
      rfl

/-! ### Nodes -/

/-- The children realize parts of a node, in order and from the first one on. -/
def StartsParts (aliases : AliasTable) (node : Command) (children : List (Pid × Process)) : Prop :=
  ∀ (i : Nat) (child : Pid × Process), children[i]? = some child →
    ∃ part, node.parts[i]? = some part ∧ Realizer aliases part child.2

/-- The ways of a process that realizes a node: what its calls tell, the children that it starts
and the code that it ends with. -/
inductive Course (aliases : AliasTable) :
    Command → Account → List (Pid × Process) → Int → Prop
  | failed {node told children failure} (fatal : told.failure = some failure)
      (errors : told.errors = [.failed failure]) (started : StartsParts aliases node children) :
      Course aliases node told children failure.exitCode
  | wordless {argv} (words : launchWords aliases argv = []) :
      Course aliases (.exec argv) { errors := [.failed .emptyCommand] } [] 2
  | launched {argv code} (words : launchWords aliases argv ≠ []) :
      Course aliases (.exec argv)
        { attempts := [launchWords aliases argv], launched := some code } [] code
  | redirected {inner direction path pid status} :
      Course aliases (.redirect inner direction path)
        { children := [pid], statuses := [(pid, status)] }
        [(pid, openOnto path direction (inner.process aliases))] status.code
  | piped {left right leftPid rightPid leftStatus rightStatus} {ends : PipeEnds} :
      Course aliases (.pipe left right)
        { children := [leftPid, rightPid],
          statuses := [(leftPid, leftStatus), (rightPid, rightStatus)] }
        [(leftPid, attach ends.read ends.write standardOutput (left.process aliases)),
          (rightPid, attach ends.write ends.read standardInput (right.process aliases))]
        (leftStatus.combine rightStatus).code

/-- No children realize no parts. -/
theorem nil_startsParts : StartsParts aliases node [] := by
  simp [StartsParts]

/-- The child of a redirect realizes the command under it. -/
theorem redirect_startsParts {inner : Command} {direction : Direction} {path : String} {pid : Pid} :
    StartsParts aliases (.redirect inner direction path)
      [(pid, openOnto path direction (inner.process aliases))] := by
  rintro (_ | i) child h <;> cases h
  exact ⟨inner, rfl, .opened⟩

/-- The left side of a pipe may be the only child that was started. -/
theorem left_startsParts {left right : Command} {pid : Pid} {ends : PipeEnds} :
    StartsParts aliases (.pipe left right)
      [(pid, attach ends.read ends.write standardOutput (left.process aliases))] := by
  rintro (_ | i) child h <;> cases h
  exact ⟨left, rfl, .attached⟩

/-- The children of a pipe realize its two sides. -/
theorem pipe_startsParts {left right : Command} {leftPid rightPid : Pid} {ends : PipeEnds} :
    StartsParts aliases (.pipe left right)
      [(leftPid, attach ends.read ends.write standardOutput (left.process aliases)),
        (rightPid, attach ends.write ends.read standardInput (right.process aliases))] := by
  rintro (_ | _ | i) child h <;> cases h
  · exact ⟨left, rfl, .attached⟩
  · exact ⟨right, rfl, .attached⟩

/-- The process of a redirect waits for its child, unless a call fails. -/
theorem redirect_conduct {inner : Command} {direction : Direction} {path : String}
    (h : ((Command.redirect inner direction path).process aliases).Conduct own children code) :
    ((∃ failure, failure.IsCall ∧ (account false own).failure = some failure) ∧
        StartsParts aliases (.redirect inner direction path) children) ∨
      ∃ pid status, children = [(pid, openOnto path direction (inner.process aliases))] ∧
        code = status.code ∧
        account false own = { children := [pid], statuses := [(pid, status)] } := by
  rcases Process.conduct_fork.1 h with
    ⟨e, own₁, rfl, failed⟩ | ⟨pid, own₁, children₁, rfl, rfl, forked⟩
  · obtain ⟨fatal, rfl⟩ : Fails Failure.IsCall false (.fork (.error e) :: own₁) children :=
      failed.fails (fail_doomed _) rfl trivial
    exact .inl ⟨fatal, nil_startsParts⟩
  · obtain ⟨own₂, rfl, noted⟩ := Process.conduct_note.1 forked
    rcases awaitRedirect_conduct noted with ⟨fatal, rfl⟩ | ⟨status, rfl, rfl, told⟩
    · exact .inl ⟨fatal, redirect_startsParts⟩
    · refine .inr ⟨pid, status, rfl, rfl, ?_⟩
      rw [account_fork, account_note false (by simp [Notice.level]), told]
      rfl

/-- The process of a pipe waits for both sides, unless a call fails. -/
theorem pipe_conduct {left right : Command}
    (h : ((Command.pipe left right).process aliases).Conduct own children code) :
    ((∃ failure, failure.IsCall ∧ (account false own).failure = some failure) ∧
        StartsParts aliases (.pipe left right) children) ∨
      ∃ (ends : PipeEnds) (leftPid rightPid : Pid) (leftStatus rightStatus : ChildStatus),
        children
          = [(leftPid, attach ends.read ends.write standardOutput (left.process aliases)),
            (rightPid, attach ends.write ends.read standardInput (right.process aliases))] ∧
        code = (leftStatus.combine rightStatus).code ∧
        account false own
          = { children := [leftPid, rightPid],
              statuses := [(leftPid, leftStatus), (rightPid, rightStatus)] } := by
  obtain ⟨e | ends, own₁, rfl, piped⟩ := Process.conduct_pipe.1 h
  · obtain ⟨fatal, rfl⟩ : Fails Failure.IsCall false (.pipe (.error e) :: own₁) children :=
      piped.fails (fail_doomed _) rfl trivial
    exact .inl ⟨fatal, nil_startsParts⟩
  rcases Process.conduct_fork.1 piped with
    ⟨e, own₂, rfl, failed⟩ | ⟨leftPid, own₂, children₂, rfl, rfl, forked⟩
  · obtain ⟨fatal, rfl⟩ : Fails Failure.IsCall true (.fork (.error e) :: own₂) children :=
      failed.fails (closeEnds_doomed ends rfl (fail_doomed _)) rfl trivial
    exact .inl ⟨fatal, nil_startsParts⟩
  rcases Process.conduct_fork.1 forked with
    ⟨e, own₃, rfl, failed⟩ | ⟨rightPid, own₃, children₃, rfl, rfl, forked'⟩
  · -- the left child has been started already
    obtain ⟨fatal, rfl⟩ : Fails Failure.IsCall true (.fork (.error e) :: own₃) children₂ :=
      failed.fails (closeEnds_doomed ends rfl (abandonPipe_doomed leftPid e)) rfl trivial
    exact .inl ⟨fatal, left_startsParts⟩
  · obtain ⟨own₄, -, told, closed⟩ := closeEnds_conduct forked'
    obtain ⟨own₅, rfl, noted⟩ := Process.conduct_note.1 closed
    rw [account_note true (by simp [Notice.level])] at told
    rcases awaitPipe_conduct noted with ⟨fatal, rfl⟩ | ⟨leftStatus, rightStatus, rfl, rfl, told'⟩
    · refine .inl ⟨?_, pipe_startsParts⟩
      rwa [account_pipe, account_fork, account_fork, told]
    · refine .inr ⟨ends, leftPid, rightPid, leftStatus, rightStatus, rfl, rfl, ?_⟩
      rw [account_pipe, account_fork, account_fork, told, told']
      rfl

namespace Course

/-- The course of a process with a fatal call. -/
theorem of_heeded (heeded : Heeded false own code)
    (fatal : ∃ failure, kind failure ∧ (account false own).failure = some failure)
    (started : StartsParts aliases node children) :
    Course aliases node (account false own) children code := by
  obtain ⟨failure, -, hf⟩ := fatal
  rw [heeded.code_eq hf]
  exact .failed hf (heeded.errors failure hf) started

/-- The course of a process that fails before it starts a child. -/
theorem of_fails (heeded : Heeded false own code) (h : Fails kind false own children) :
    Course aliases node (account false own) children code :=
  of_heeded heeded h.1 (h.2 ▸ nil_startsParts)

/-- The children of a process realize parts of its node. -/
theorem startsParts {told : Account} (h : Course aliases node told children code) :
    StartsParts aliases node children := by
  cases h with
  | failed _ _ started => exact started
  | wordless | launched => exact nil_startsParts
  | redirected => exact redirect_startsParts
  | piped => exact pipe_startsParts

end Course

/-- The process of a program without words, and the one of a program that is tried, take the courses
of such programs. -/
theorem exec_course {argv : List String}
    (h : ((Command.exec argv).process aliases).Conduct own children code)
    (heeded : Heeded false own code) :
    Course aliases (.exec argv) (account false own) children code := by
  obtain ⟨rfl, ⟨words, rfl, told⟩ | ⟨program, arguments, words, ran⟩⟩ := launch_conduct h
  · exact told ▸ .wordless words
  · rcases ran with rfl | ⟨e, own', rfl, failed⟩
    · have told : account false [.note (.launching (program :: arguments)),
          .exec (program :: arguments) (.ok code)]
            = { attempts := [launchWords aliases argv], launched := some code } := by
        rw [words]
        rfl
      exact told ▸ .launched (by simp [words])
    · have fails : Fails (fun _ => True) false (.exec (program :: arguments) (.error e) :: own')
          [] := failed.fails (fail_doomed _) rfl trivial
      exact .of_fails heeded (fails.of_failure rfl)

/-- **Course of a node.** Whatever its calls result in, a process that realizes a node takes one
of the courses. -/
theorem Realizer.course (h : Realizer aliases node p) (conduct : p.Conduct own children code) :
    Course aliases node (account false own) children code := by
  have heeded := conduct.heeded h.heeds
  rcases h.conduct conduct with ⟨kind, fails⟩ | ⟨own', -, told, conduct'⟩
  · exact .of_fails heeded fails
  · -- the streams have been set up, and nothing is told of that
    rw [told]
    have heeded' := conduct'.heeded (node.process_heeds aliases)
    cases node with
    | exec argv => exact exec_course conduct' heeded'
    | pipe left right =>
      rcases pipe_conduct conduct' with
        ⟨fatal, started⟩ | ⟨ends, leftPid, rightPid, leftStatus, rightStatus, rfl, rfl, told'⟩
      · exact .of_heeded heeded' fatal started
      · exact told' ▸ .piped
    | redirect inner direction path =>
      rcases redirect_conduct conduct' with ⟨fatal, started⟩ | ⟨pid, status, rfl, rfl, told'⟩
      · exact .of_heeded heeded' fatal started
      · exact told' ▸ .redirected

end LineShell
