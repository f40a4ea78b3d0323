import LineShell.Proofs.Ending.Account
import LineShell.Proofs.Trace.Line

namespace LineShell

/-!
# How the processes of a line end

A failure stays in the process in which it happens.  The code of a process is a matter of its own
calls, and of the shell only its own two calls can fail a line.

* `Ending` — what the calls of a process that realizes a node say of its end.
* `Realizes` — which process of a line realizes which node of its command.
* `Placed.realizer` — every process below one that realizes a node realizes one, too.
* `failures_contained` — the end of every process of a line, and of the line;
  `failures_contained_aliased` is a line with aliases.
-/

/-! ### The end of a process -/

/-- The end of a process that realizes a node, as its own calls decide it. -/
structure Ending (aliases : AliasTable) (node : Command) (own : List Action) (code : Int) :
    Prop where
  /-- The calls decide the code. -/
  decided : verdict? aliases node (account false own) = some code
  /-- A fatal call decides it alone, and behind it nothing is begun. -/
  fatal : ∀ before a after c, own = before ++ a :: after →
    a.failureCode? (before.any Action.makesPipe) = some c →
    code = c ∧ ∀ x ∈ after, x.WindsUp
  /-- Without a word to run the code is 2, unless a call has failed before. -/
  wordless : node.isWordless aliases = true → (account false own).failure = none → code = 2
  /-- An end of the own pipe that cannot be closed is noted, and no more comes of it. -/
  warned : ∀ before descriptor e after, own = before ++ .close descriptor (.error e) :: after →
    before.any Action.makesPipe = true → ∃ rest, after = .note (.closeFailed descriptor e) :: rest
  /-- A failure is one error in the log, and there is none else. -/
  errors : errorsOf own = (blame? aliases node (account false own)).toList.map Notice.failed
  /-- The process has not ended before. -/
  alive : ∀ c, .exit c ∉ own
  /-- A process that has not failed has heard of each of its children. -/
  heard : (account false own).failure = none →
    (account false own).statuses.map Prod.fst = (account false own).children

namespace Course

variable {aliases : AliasTable} {node : Command} {told : Account} {children : List (Pid × Process)}
  {code : Int}

/-- The code of a course is the one that its account decides. -/
theorem verdict (h : Course aliases node told children code)
    (launched : ∀ c, told.launched = some c → c = code) :
    verdict? aliases node told = some code := by
  cases h with
  | failed fatal errors started =>
    cases hl : told.launched with
    | none => simp [verdict?, blame?, hl, fatal]
    | some c => simp [verdict?, hl, launched c hl]
  | wordless words =>
    simp [verdict?, blame?, Command.isWordless_exec.2 words, Failure.exitCode]
  | launched words => rfl
  | redirected => rfl
  | piped => rfl

/-- A course without words that does not fail before has code 2. -/
theorem wordless_code (h : Course aliases node told children code)
    (wordless : node.isWordless aliases = true) (clean : told.failure = none) : code = 2 := by
  cases h with
  | failed fatal => rw [clean] at fatal; cases fatal
  | wordless => rfl
  | launched words => exact absurd (Command.isWordless_exec.1 wordless) words
  | redirected => cases wordless
  | piped => cases wordless

/-- The errors of a course are the failure that its account holds, if there is one. -/
theorem errors_eq (h : Course aliases node told children code) :
    told.errors = (blame? aliases node told).toList.map Notice.failed := by
  cases h with
  | failed fatal errors started => simp [blame?, fatal, errors]
  | wordless words => simp [blame?, Command.isWordless_exec.2 words]
  | launched words => simp [blame?, mt Command.isWordless_exec.1 words]
  | redirected => rfl
  | piped => rfl

/-- A course without a failure has heard of all its children, in order. -/
theorem heard (h : Course aliases node told children code) (clean : told.failure = none) :
    told.statuses.map Prod.fst = told.children := by
  cases h with
  | failed fatal => rw [clean] at fatal; cases fatal
  | wordless | launched | redirected | piped => rfl

end Course

namespace Process.Conduct

variable {p : Process} {own : List Action} {children : List (Pid × Process)} {code : Int}

/-- A program that takes the place of a process gives it its code. -/
theorem launched (h : p.Conduct own children code) (piped : Bool) {c : Int}
    (hc : (account piped own).launched = some c) : c = code := by
  change own.findSome? Action.launched? = some c at hc
  induction h with
  | exit => cases hc
  | exec => cases hc; rfl
  | move first rest ih => cases first <;> exact ih hc
  | fork rest ih => exact ih hc

/-- No way through a tree of calls holds the end of the process. -/
theorem alive (h : p.Conduct own children code) (c : Int) : .exit c ∉ own := by
  induction h with
  | exit => simp
  | exec => simp
  | move first rest ih => cases first <;> simpa using ih
  | fork rest ih => simpa using ih

/-- The children of a way through a tree of calls are those that its calls tell. -/
theorem children_eq (h : p.Conduct own children code) (piped : Bool) :
    (account piped own).children = children.map Prod.fst := by
  change own.filterMap Action.child? = _
  induction h with
  | exit => rfl
  | exec => rfl
  | move first rest ih => cases first <;> exact ih
  | fork rest ih => exact congrArg _ ih

end Process.Conduct

/-- A process of a line ends with one code. -/
theorem Placed.code_eq {line : List Event} {q : Pid} {p : Process} {es : List Event} {code c : Int}
    (h : Placed line q p es code) (hc : .exit c ∈ callsOf (some q) line) : c = code := by
  obtain ⟨children, n, m, conduct, -⟩ := h.children
  rw [h.own] at hc
  rcases List.mem_append.1 hc with hc | hc
  · exact absurd hc (conduct.alive c)
  · cases List.mem_singleton.1 hc
    rfl

/-- The calls of a process that realizes a node say how it ends. -/
theorem Realizer.ending {aliases : AliasTable} {node : Command} {p : Process} {own : List Action}
    {children : List (Pid × Process)} {code : Int} (h : Realizer aliases node p)
    (conduct : p.Conduct own children code) : Ending aliases node own code where
  decided := (h.course conduct).verdict fun c hc => conduct.launched false hc
  fatal before a after c hown hc := by
    rw [Action.failureCode?_eq, Option.map_eq_some_iff] at hc
    obtain ⟨failure, hf, rfl⟩ := hc
    exact (conduct.heeded h.heeds).fatal before a after failure hown (by rwa [Bool.or_false])
  wordless := (h.course conduct).wordless_code
  warned before descriptor e after hown hpiped :=
    (conduct.heeded h.heeds).warned before descriptor e after hown (by rwa [Bool.or_false])
  errors := (h.course conduct).errors_eq
  alive := conduct.alive
  heard := (h.course conduct).heard

/-! ### The processes of a line -/

/-- The process with a number realizes a node of the command of a line: the child of the shell
realizes the command, and the children of a process realize the parts of its node in order. -/
inductive Realizes (line : List Event) (command : Command) : Pid → Command → Prop
  | root {pid} (started : (account false (callsOf none line)).children = [pid]) :
      Realizes line command pid command
  | part {parent node pid part} {i : Nat} (above : Realizes line command parent node)
      (started : (account false (callsOf (some parent) line)).children[i]? = some pid)
      (is : node.parts[i]? = some part) : Realizes line command pid part

/-- Induction along the parts of a command. -/
theorem Command.parts_induction {motive : Command → Prop}
    (node : ∀ c, (∀ part ∈ c.parts, motive part) → motive c) (c : Command) : motive c := by
  induction c with
  | exec argv => exact node _ (by simp [parts])
  | pipe left right ihl ihr => exact node _ (by simp [parts, ihl, ihr])
  | redirect inner direction path ih => exact node _ (by simp [parts, ih])

/-- The end of a process is not fatal to it. -/
theorem fatal?_exit (piped : Bool) (own : List Action) (code : Int) :
    fatal? piped (own ++ [.exit code]) = fatal? piped own := by
  induction own generalizing piped with
  | nil => rfl
  | cons a own ih => rw [List.cons_append, fatal?, fatal?, ih]

/-- The end of a process tells nothing that its other calls do not tell. -/
theorem account_exit (own : List Action) (code : Int) :
    account false (own ++ [.exit code]) = account false own := by
  simp [account, fatal?_exit, errorsOf, Action.attempt?, Action.launched?, Action.child?,
    Action.status?, Action.error?]

/-- Every process that is started below one that realizes a node realizes a node and has its place
in the line, and so has that one itself. -/
theorem Placed.realizer {aliases : AliasTable} {line : List Event} {command node : Command}
    {p : Process} {q : Pid} {es : List Event} {code : Int} (h : Placed line q p es code)
    (realizer : Realizer aliases node p) (realizes : Realizes line command q node) {pid : Pid}
    (hpid : pid = q ∨ ∃ e ∈ es, e.entry = some (.fork pid)) :
    ∃ node p es code, Realizes line command pid node ∧ Realizer aliases node p ∧
      Placed line pid p es code := by
  induction node using Command.parts_induction generalizing p q es code with
  | node node ih =>
    rcases hpid with rfl | ⟨e, he, hfork⟩
    · exact ⟨node, p, es, code, realizes, realizer, h⟩
    · -- the process is a child or is started in the block of one
      obtain ⟨children, n, m, conduct, blocks, placed⟩ := h.children
      obtain ⟨k, hk, hkpid⟩ := blocks.started he hfork
      obtain ⟨i, hi⟩ := List.getElem?_of_mem hk
      obtain ⟨part, hpart, realizer'⟩ := (realizer.course conduct).startsParts i (k.pid, k.process)
        (by rw [List.getElem?_map, hi]; rfl)
      have started : (account false (callsOf (some q) line)).children[i]? = some k.pid := by
        rw [h.own, account_exit, conduct.children_eq, List.map_map, List.getElem?_map, hi]
        rfl
      exact ih part (List.mem_of_getElem? hpart) (placed k hk) realizer'
        (.part realizes started hpart) hkpid

/-! ### The ends in the record -/

/-- The code that an entry of the record gives for a process. -/
def Call.codeOf? (pid : Pid) : Call → Option Int
  | .exit q code => if q = pid then some code else none
  | _ => none

/-- The codes that the record of a trace gives for a process. -/
def codesOf (pid : Pid) (es : List Event) : List Int :=
  (es.filterMap (·.entry)).filterMap (Call.codeOf? pid)

/-- The code of a process that ends by a call. -/
def Action.exit? : Action → Option Int
  | .exit code => some code
  | _ => none

/-- The end of a process stands in the record as its own call. -/
def Event.OwnEnd (e : Event) : Prop :=
  ∀ pid code, e.entry = some (.exit pid code) ↔ e.caller = some pid ∧ e.action = .exit code

/-- A plain event is no end of a process, neither in the record nor as a call. -/
theorem Event.IsPlain.ownEnd {e : Event} (h : e.IsPlain) : e.OwnEnd := fun pid code =>
  ⟨fun hentry => absurd hentry (h.entry_exit pid code),
    fun haction => absurd haction.2 (h.action_exit code)⟩

/-- In a run every end stands in the record as the own call of the process. -/
theorem Runs.ownEnd {self : Caller} {p : Process} {r r' : Recorder} {es : List Event} {code : Int}
    (h : Runs self p r es code r') : ∀ e ∈ es, e.OwnEnd := by
  induction h with
  | exit => simp
  | @exec self argv next r code r' h =>
    refine List.forall_mem_singleton.2 (Event.IsPlain.ownEnd ?_)
    apply Event.isPlain_entry <;> simp
  | step first _ ih =>
    exact List.forall_mem_append.2 ⟨fun e he => (first.plain e he).2.ownEnd, ih⟩
  | fork _ _ _ ihi ihr =>
    intro e he
    rcases mem_child.1 he with rfl | he | rfl | he
    · simp [Event.OwnEnd, Event.started]
    · exact ihi e he
    · simp [Event.OwnEnd, Event.ended]
    · exact ihr e he

/-- Only the entry for its end gives a code for a process. -/
theorem Call.codeOf?_eq_some {call : Call} {pid : Pid} {code : Int} :
    call.codeOf? pid = some code ↔ call = .exit pid code := by
  cases call <;> simp [Call.codeOf?]

/-- Only the call that ends a process holds its code. -/
theorem Action.exit?_eq_some {a : Action} {code : Int} : a.exit? = some code ↔ a = .exit code := by
  cases a <;> simp [Action.exit?]

/-- The codes that the record gives for a process are those of its calls. -/
theorem codesOf_eq {es : List Event} (h : ∀ e ∈ es, e.OwnEnd) (pid : Pid) :
    codesOf pid es = (callsOf (some pid) es).filterMap Action.exit? := by
  rw [codesOf, callsOf, List.filterMap_filterMap, List.filterMap_filterMap]
  induction es with
  | nil => rfl
  | cons e es ih =>
    obtain ⟨he, hes⟩ := List.forall_mem_cons.1 h
    have heq : e.entry.bind (Call.codeOf? pid)
        = (if e.caller = some pid then some e.action else none).bind Action.exit? := by
      ext code
      simp [Call.codeOf?_eq_some, Action.exit?_eq_some, Option.bind_eq_some_iff, he pid code]
    rw [List.filterMap_cons, List.filterMap_cons, heq, ih hes]

/-! ### Lines -/

/-- The shell's own part in the execution of a command: a blank one is passed over, a fork that
fails is all there is, and else the shell waits for its one child. -/
theorem execute_shell (session : Session) (command : Command) (s : RehearsalStage) :
    let line := traceLine session command s
    let own := callsOf none line
    let outcome := (execute session command s).1
    (command.isEmpty = true ∧ outcome = .ok none ∧
        line = [⟨none, .note .blankCommand, none⟩]) ∨
      (∃ e, outcome = .error (.call .fork e) ∧
        line = [⟨none, .note (.executing command), none⟩,
          ⟨none, .fork (.error e), some .forkFailed⟩]) ∨
      (∃ pid e, outcome = .error (.call .waitpid e) ∧
        own = [.note (.executing command), .fork (.ok pid), .note (.lineStarted pid),
          .wait pid (.error e)]) ∨
      ∃ pid status, outcome = .ok (some status) ∧
        own = [.note (.executing command), .fork (.ok pid), .note (.lineStarted pid),
          .wait pid (.ok status), .note (.lineEnded status)] := by
  intro line own outcome
  simp only [line, own, outcome, traceLine, Process.ofLine, execute]
  split
  case isTrue blank => exact .inl ⟨blank, rfl, rfl⟩
  refine .inr ?_
  simp only [System.fork, System.note, Recorder.fork, Process.trace]
  rcases (s.recorder.note (.executing command)).beginFork with ⟨e | pid, r⟩
  · exact .inl ⟨e, rfl, rfl⟩
  refine .inr ?_
  -- the block of the child holds no call of the shell, so its own calls are those around it
  have body : callsOf none ((command.process session.aliases).trace (some pid) r) = [] := by
    refine callsOf_eq_nil fun e he hnone => ?_
    rcases ((runs_trace _ _ _).within e he).caller with hself | ⟨q, hq, -⟩
    · cases hnone.symm.trans hself
    · cases hnone.symm.trans hq
  have ended : ∀ code es, callsOf none (.ended pid code :: es) = callsOf none es :=
    fun code es => callsOf_cons_of_ne (by simp [Event.ended]) es
  simp only [awaitLine, System.wait, System.note]
  generalize (Recorder.endFork _ pid _).note (.lineStarted pid) = r'
  rcases r'.wait pid with ⟨e | status, r''⟩
  · refine .inl ⟨pid, e, rfl, ?_⟩
    rw [callsOf_own, callsOf_started, callsOf_append, body, ended, callsOf_own, callsOf_own]
    rfl
  · refine .inr ⟨pid, status, rfl, ?_⟩
    rw [callsOf_own, callsOf_started, callsOf_append, body, ended, callsOf_own, callsOf_own]
    rfl

/-- The trace of a line is a run of the process of the shell for that line. -/
theorem traceLine_runs (session : Session) (command : Command) (s : RehearsalStage) :
    ∃ code r', Runs none (Process.ofLine session command) s.recorder
      (traceLine session command s) code r' :=
  ⟨_, _, runs_trace _ none _⟩

/-- The shell starts at most the process of the command. -/
theorem Process.ofLine_conduct {session : Session} {command : Command} {own : List Action}
    {children : List (Pid × Process)} {code : Int}
    (h : (Process.ofLine session command).Conduct own children code) :
    children = [] ∨ ∃ pid, children = [(pid, command.process session.aliases)] := by
  unfold Process.ofLine at h
  split at h
  · obtain ⟨own₁, rfl, blank⟩ := conduct_note.1 h
    exact .inl (conduct_exit.1 blank).2.1
  · obtain ⟨own₁, rfl, noted⟩ := conduct_note.1 h
    rcases conduct_fork.1 noted with
      ⟨e, own₂, rfl, failed⟩ | ⟨pid, own₂, children₂, rfl, rfl, forked⟩
    · exact .inl (conduct_exit.1 failed).2.1
    · obtain ⟨own₃, rfl, noted'⟩ := conduct_note.1 forked
      obtain ⟨e | status, own₄, rfl, waited⟩ := conduct_wait.1 noted'
      · obtain ⟨-, rfl, -⟩ := conduct_exit.1 waited
        exact .inr ⟨pid, rfl⟩
      · obtain ⟨own₅, rfl, ended⟩ := conduct_note.1 waited
        obtain ⟨-, rfl, -⟩ := conduct_exit.1 ended
        exact .inr ⟨pid, rfl⟩

/-- The shell starts one child at most, which realizes the command. -/
theorem traceLine_children (session : Session) (command : Command) (s : RehearsalStage) :
    let line := traceLine session command s
    ∃ (children : List Child) (n m : Pid), Blocks none n line children m ∧
      (account false (callsOf none line)).children = children.map Child.pid ∧
      ∀ k ∈ children, children = [k] ∧
        Placed line k.pid (command.process session.aliases) k.body k.code := by
  intro line
  obtain ⟨_, _, runs⟩ := traceLine_runs session command s
  have self_lt : ∀ q, none = some q → q < s.recorder.nextPid := fun q hq => by cases hq
  obtain ⟨children, conduct, blocks, -⟩ := runs.blocks self_lt
  refine ⟨children, _, _, blocks, ?_, fun k hk => ?_⟩
  · rw [conduct.children_eq, List.map_map]
    rfl
  · have placed := blocks.placed self_lt (fun x _ _ => rfl) k hk
    rcases Process.ofLine_conduct conduct with hnil | ⟨child, hone⟩
    · rw [List.map_eq_nil_iff.1 hnil] at hk
      cases hk
    · obtain ⟨k', rfl, hk'⟩ := List.map_eq_singleton_iff.1 hone
      cases List.mem_singleton.1 hk
      obtain ⟨rfl, hprocess⟩ := Prod.mk.inj hk'
      exact ⟨rfl, hprocess ▸ placed⟩

/-- An execution fails with its fork or with its wait, and only so. -/
theorem execute_error_iff (session : Session) (command : Command) (s : RehearsalStage)
    (failure : Failure) :
    let own := callsOf none (traceLine session command s)
    (execute session command s).1 = .error failure ↔
      (∃ e, .fork (.error e) ∈ own ∧ failure = .call .fork e) ∨
        ∃ pid e, (account false own).children = [pid] ∧ .wait pid (.error e) ∈ own ∧
          failure = .call .waitpid e := by
  intro own
  rcases execute_shell session command s with
    ⟨-, result, shell⟩ | ⟨e, result, shell⟩ | ⟨pid, e, result, shell⟩ | ⟨pid, status, result, shell⟩
  · have calls : own = [.note .blankCommand] := congrArg (callsOf none) shell
    simp [result, calls]
  · have calls : own = [.note (.executing command), .fork (.error e)] :=
      congrArg (callsOf none) shell
    simpa [result, calls] using eq_comm
  · have calls : own = _ := shell
    -- the failed wait is there, and no failed fork
    constructor
    · intro heq
      cases result.symm.trans heq
      exact .inr ⟨pid, e, calls ▸ rfl, by simp [calls], rfl⟩
    · rintro (⟨e', he', -⟩ | ⟨q, e', -, he', rfl⟩)
      · simp [calls] at he'
      · obtain ⟨rfl, rfl⟩ : q = pid ∧ e' = e := by simpa [calls] using he'
        exact result
  · have calls : own = _ := shell
    simp [result, calls]

/-- When the fork of the shell fails, nothing else is recorded. -/
theorem entries_of_forkFailed (session : Session) (command : Command) (s : RehearsalStage)
    {e : Errno} (failed : .fork (.error e) ∈ callsOf none (traceLine session command s)) :
    (traceLine session command s).filterMap (·.entry) = [.forkFailed] := by
  rcases execute_shell session command s with
    ⟨-, -, shell⟩ | ⟨e, -, shell⟩ | ⟨pid, e, -, shell⟩ | ⟨pid, status, -, shell⟩
  · have calls : callsOf none (traceLine session command s) = [.note .blankCommand] :=
      congrArg (callsOf none) shell
    simp [calls] at failed
  · rw [shell]
    rfl
  · simp [shell] at failed
  · simp [shell] at failed

/-- A process that is started in a line realizes a node of the command and has its place there. -/
theorem traceLine_realizer (session : Session) (command : Command) (s : RehearsalStage) {pid : Pid}
    (started : .fork pid ∈ (traceLine session command s).filterMap (·.entry)) :
    let line := traceLine session command s
    ∃ node p es code, Realizes line command pid node ∧ Realizer session.aliases node p ∧
      Placed line pid p es code := by
  intro line
  obtain ⟨e, he, hfork⟩ := List.mem_filterMap.1 started
  obtain ⟨children, _, _, blocks, told, shape⟩ := traceLine_children session command s
  obtain ⟨k, hk, hkpid⟩ := blocks.started he hfork
  obtain ⟨rfl, placed⟩ := shape k hk
  exact placed.realizer .plain (.root told) hkpid

/-- A process that is started in a line realizes a node of the command and ends once. -/
theorem traceLine_ending (session : Session) (command : Command) (s : RehearsalStage) {pid : Pid}
    (started : .fork pid ∈ (traceLine session command s).filterMap (·.entry)) :
    let line := traceLine session command s
    ∃ node own code, Realizes line command pid node ∧
      callsOf (some pid) line = own ++ [.exit code] ∧ codesOf pid line = [code] ∧
      Ending session.aliases node own code := by
  intro line
  obtain ⟨node, p, es, code, realizes, realizer, placed⟩ :=
    traceLine_realizer session command s started
  obtain ⟨children, _, _, conduct, -⟩ := placed.children
  have ending := realizer.ending conduct
  -- the one end in the record is that of the calls, which hold no other
  obtain ⟨_, _, runs⟩ := traceLine_runs session command s
  have silent : (callsOf (some pid) es).filterMap Action.exit? = [] := by
    refine List.filterMap_eq_nil_iff.2 fun a ha =>
      Option.eq_none_iff_forall_ne_some.2 fun c hc => ?_
    exact ending.alive c (Action.exit?_eq_some.1 hc ▸ ha)
  refine ⟨node, _, code, realizes, placed.own, ?_, ending⟩
  rw [codesOf_eq runs.ownEnd, placed.own, List.filterMap_append, silent]
  rfl

/-- **Failures are contained.** `line` is the trace of the execution of a command, in any world.
The execution fails if the fork of the shell does, and then nothing else happens, or if its wait for
its child does, and never else.  Every child that `line` starts realizes a node of the command and
ends once, with the code that its own calls decide. -/
theorem failures_contained (session : Session) (command : Command) (s : RehearsalStage) :
    let line := traceLine session command s
    let own := callsOf none line
    let outcome := (execute session command s).1
    s.recorder.Follows line (execute session command s).2.recorder ∧
      (∀ failure, outcome = .error failure ↔
        (∃ e, .fork (.error e) ∈ own ∧ failure = .call .fork e) ∨
          ∃ pid e, (account false own).children = [pid] ∧ .wait pid (.error e) ∈ own ∧
            failure = .call .waitpid e) ∧
      (∀ e, .fork (.error e) ∈ own → line.filterMap (·.entry) = [.forkFailed]) ∧
      ∀ pid, .fork pid ∈ line.filterMap (·.entry) →
        ∃ node own code, Realizes line command pid node ∧
          callsOf (some pid) line = own ++ [.exit code] ∧ codesOf pid line = [code] ∧
          Ending session.aliases node own code :=
  ⟨execute_follows session command s, execute_error_iff session command s,
    fun _ failed => entries_of_forkFailed session command s failed,
    fun _ started => traceLine_ending session command s started⟩

/-- One alias stands for a program and its argument, and the code is that of the program; the other
stands for a blank word, and no program is tried for it. -/
theorem failures_contained_aliased :
    let world : World := { exitCodes := [("ls", 7)] }
    let start : RehearsalStage := ⟨{ world := world }, .empty⟩
    let session : Session := ⟨"/", AliasTable.defaults.insert "nop" [" "]⟩
    let command : Command := .pipe (.exec ["ll"]) (.exec ["nop"])
    let line := traceLine session command start
    (∃ node own, Realizes line command 101 node ∧ callsOf (some 101) line = own ++ [.exit 7] ∧
        codesOf 101 line = [7] ∧ Ending session.aliases node own 7 ∧
        (account false own).attempts = [["ls", "-l"]] ∧ errorsOf own = []) ∧
      ∃ node own, Realizes line command 102 node ∧ callsOf (some 102) line = own ++ [.exit 2] ∧
        codesOf 102 line = [2] ∧ Ending session.aliases node own 2 ∧
        (account false own).attempts = [] ∧ errorsOf own = [.failed .emptyCommand] := by
  intro world start session command line
  obtain ⟨-, -, -, ends⟩ := failures_contained session command start
  -- what the calls before the end tell is told by all of them
  have told : ∀ {pid own code}, callsOf (some pid) line = own ++ [.exit code] →
      account false own = account false (callsOf (some pid) line) :=
    fun calls => by rw [calls, account_exit]
  constructor
  · obtain ⟨node, own, code, realizes, calls, codes, ending⟩ := ends 101 (by decide +kernel)
    obtain rfl : code = 7 := List.singleton_inj.1 (codes.symm.trans (by decide +kernel))
    exact ⟨node, own, realizes, calls, codes, ending,
      (congrArg Account.attempts (told calls)).trans (by decide +kernel),
      (congrArg Account.errors (told calls)).trans (by decide +kernel)⟩
  · obtain ⟨node, own, code, realizes, calls, codes, ending⟩ := ends 102 (by decide +kernel)
    obtain rfl : code = 2 := List.singleton_inj.1 (codes.symm.trans (by decide +kernel))
    exact ⟨node, own, realizes, calls, codes, ending,
      (congrArg Account.attempts (told calls)).trans (by decide +kernel),
      (congrArg Account.errors (told calls)).trans (by decide +kernel)⟩

end LineShell
