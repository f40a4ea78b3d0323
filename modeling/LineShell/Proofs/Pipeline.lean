import LineShell.Proofs.Ending
import LineShell.Proofs.Pipeline.Codes
import LineShell.Proofs.Rendering

namespace LineShell

/-!
# How pipelines end

The code of a line travels from process to process: each one tells what it heard of its children as
a code of its own.  In a world without faults all of this comes to one rule about the stages of the
pipeline.

* `Governed` — a line in which only missing files and programs make calls fail.
* `Realizing` — a process whose standard streams are set up, about to realize a node.
* `Realizing.stage`, `Realizing.pipeline` — the code of a stage, and of a pipeline.
* `pipeline_ends` — a line that holds a pipeline ends with the code of its stages.
-/

/-! ### Programs in a trace -/

/-- The program that an event tries to put in the place of its process. -/
def Event.attempt? (e : Event) : Option (Pid × List String) :=
  match e.caller with
  | some pid => e.action.attempt?.map (pid, ·)
  | none => none

/-- The programs that the processes of a trace try to run, in order. -/
def attemptsOf (es : List Event) : List (Pid × List String) :=
  es.filterMap Event.attempt?

/-- An event that tries no program adds no attempt. -/
theorem attemptsOf_cons_of_none {e : Event} (h : e.attempt? = none) (es : List Event) :
    attemptsOf (e :: es) = attemptsOf es :=
  List.filterMap_cons_none h

/-- An event tries a program only by its call. -/
theorem Event.attempt?_of_none {e : Event} (h : e.action.attempt? = none) : e.attempt? = none := by
  unfold Event.attempt?
  split
  · rw [h]
    rfl
  · rfl

/-- A child is one block of what the processes of a trace try to run. -/
theorem attemptsOf_child (parent : Caller) (pid : Pid) (body : List Event) (code : Int)
    (es : List Event) :
    attemptsOf (.started parent pid :: (body ++ .ended pid code :: es))
      = attemptsOf body ++ attemptsOf es := by
  rw [attemptsOf_cons_of_none (Event.attempt?_of_none rfl), attemptsOf, List.filterMap_append]
  rfl

/-- A process that tries to run nothing itself leaves that to its children. -/
theorem Blocks.attemptsOf_children {self : Caller} {n m : Pid} {es : List Event}
    {children : List Child} (h : Blocks self n es children m)
    (nothing : ∀ a ∈ callsOf self es, a.attempt? = none) :
    attemptsOf es = children.flatMap fun k => attemptsOf k.body := by
  replace nothing : ∀ e ∈ es, e.caller = self → e.action.attempt? = none :=
    fun e he hself => nothing _ (mem_callsOf.2 ⟨e, he, hself, rfl⟩)
  induction h with
  | nil => rfl
  | @call n e es children m own plain rest ih =>
    obtain ⟨he, hes⟩ := List.forall_mem_cons.1 nothing
    rw [attemptsOf_cons_of_none (Event.attempt?_of_none (he own)), ih hes]
  | @child k es children m run rest ih =>
    have hes := fun e he => nothing e (mem_child.2 (.inr (.inr (.inr he))))
    rw [attemptsOf_child, ih hes, List.flatMap_cons]

/-- A process without children is the only one that tries to run something. -/
theorem Blocks.attemptsOf_alone {q n m : Pid} {es : List Event} (h : Blocks (some q) n es [] m) :
    attemptsOf es
      = ((callsOf (some q) es).filterMap Action.attempt?).map fun argv => (q, argv) := by
  generalize hself : some q = self at h
  generalize hchildren : ([] : List Child) = children at h
  induction h with
  | nil => rfl
  | @call n e es children m own plain rest ih =>
    have he : e.attempt? = e.action.attempt?.map fun argv => (q, argv) := by
      rw [Event.attempt?, own, ← hself]
    rw [callsOf_cons_self own]
    cases ha : e.action.attempt? with
    | none =>
      rw [attemptsOf_cons_of_none (Event.attempt?_of_none ha), List.filterMap_cons_none ha]
      exact ih hchildren
    | some argv =>
      rw [ha] at he
      rw [attemptsOf, List.filterMap_cons_some he, List.filterMap_cons_some ha, List.map_cons]
      exact congrArg _ (ih hchildren)
  | child => cases hchildren

/-! ### Governed lines -/

/-- In the line of a world calls fail only for what is missing, and only a program is killed. -/
structure Governed (world : World) (line : List Event) : Prop where
  answered : ∀ e ∈ line, world.Answers (fun pid c => .exit c ∈ callsOf (some pid) line) e.action
  signaled : ∀ pid signal, world.signals.lookup pid = some signal → callsOf (some pid) line ≠ [] →
    ∃ argv c, .exec argv (.ok c) ∈ callsOf (some pid) line

namespace Governed

variable {world : World} {line : List Event} {q : Pid} {p : Process} {es : List Event} {code : Int}

/-- Every call of a governed line is answered as its world says. -/
theorem calls_answered (h : Governed world line) (q : Caller) :
    ∀ a ∈ callsOf q line, world.Answers (fun pid c => .exit c ∈ callsOf (some pid) line) a := by
  intro a ha
  obtain ⟨e, he, -, rfl⟩ := mem_callsOf.1 ha
  exact h.answered e he

/-- Every call of a process of a governed line is answered so, as its own block holds it. -/
theorem own_answered (h : Governed world line) (placed : Placed line q p es code) :
    ∀ a ∈ callsOf (some q) es, world.Answers (fun pid c => .exit c ∈ callsOf (some pid) line) a :=
  fun a ha => h.calls_answered (some q) a (placed.own ▸ List.mem_append_left _ ha)

/-- No call that sets a process up fails. -/
theorem not_isCall (h : Governed world line) (placed : Placed line q p es code) {failure : Failure}
    (fatal : (account false (callsOf (some q) es)).failure = some failure) : ¬ failure.IsCall := by
  intro isCall
  obtain ⟨before, a, after, hown, ha⟩ := exists_of_fatal? fatal
  have answer := h.own_answered placed a (hown ▸ by simp)
  cases a with
  | exit | note => cases ha
  | fork result | pipe result =>
    obtain ⟨_, rfl⟩ := answer
    cases ha
  | dup2 _ _ result | close _ result =>
    cases answer
    cases ha
  | openFile _ _ result | exec _ result =>
    cases result <;> cases ha
    exact isCall
  | wait _ result =>
    obtain ⟨_, _, _, rfl, _⟩ := answer
    cases ha

/-- A process that no program takes the place of is reported with its own code. -/
theorem reported_eq (h : Governed world line) (placed : Placed line q p es code)
    (launched : (account false (callsOf (some q) es)).launched = none) :
    world.reported q code = code := by
  cases hsignal : world.signals.lookup q with
  | none => simp [World.reported, hsignal]
  | some signal =>
    have hcalls : callsOf (some q) line ≠ [] := by simp [placed.own]
    obtain ⟨argv, c, hexec⟩ := h.signaled q signal hsignal hcalls
    rw [placed.own] at hexec
    have hown : Action.exec argv (.ok c) ∈ callsOf (some q) es := by simpa using hexec
    have hnone := List.findSome?_eq_none_iff.1 launched _ hown
    cases hnone

/-- What a process hears of a child is the code that the child is reported with. -/
theorem status_code (h : Governed world line) (placed : Placed line q p es code) {k : Child}
    (child : Placed line k.pid k.process k.body k.code) {status : ChildStatus}
    (heard : (k.pid, status) ∈ (account false (callsOf (some q) es)).statuses) :
    status.code = world.reported k.pid k.code := by
  obtain ⟨a, ha, hstatus⟩ := List.mem_filterMap.1 heard
  obtain rfl := Action.eq_of_status? hstatus
  obtain ⟨c, status', hended, hresult, hcode⟩ := h.own_answered placed _ ha
  cases hresult
  rw [hcode, child.code_eq hended]

end Governed

/-! ### Processes that realize a node -/

/-- A process of a line that has got its standard streams and goes on to realize a node. -/
structure Realizing (aliases : AliasTable) (line : List Event) (node : Command) (q : Pid)
    (es : List Event) (children : List Child) (code : Int) : Prop where
  placed : ∃ p, Placed line q p es code
  blocks : ∃ n m, Blocks (some q) n es children m
  child : ∀ k ∈ children, Placed line k.pid k.process k.body k.code
  leads : LeadsTo (node.process aliases) false (callsOf (some q) es)
    (children.map fun k => (k.pid, k.process)) code

variable {world : World} {aliases : AliasTable} {line : List Event} {node : Command} {q : Pid}
  {es : List Event} {code : Int}

/-- A process with a place in the line realizes its node from the start. -/
theorem Placed.realizing (placed : Placed line q (node.process aliases) es code) :
    ∃ children, Realizing aliases line node q es children code := by
  obtain ⟨children, n, m, conduct, blocks, child⟩ := placed.children
  exact ⟨children, ⟨_, placed⟩, ⟨n, m, blocks⟩, child, .refl conduct⟩

/-- A process behind an attached end of a pipe realizes its node, for in a governed line attaching
cannot fail. -/
theorem Placed.realizing_attach (h : Governed world line) {unused used target : Descriptor}
    (placed : Placed line q (attach unused used target (node.process aliases)) es code) :
    ∃ children, Realizing aliases line node q es children code := by
  obtain ⟨children, n, m, conduct, blocks, child⟩ := placed.children
  rcases attach_conduct conduct with ⟨⟨failure, isCall, fatal⟩, -⟩ | leads
  · exact absurd isCall (h.not_isCall placed fatal)
  · exact ⟨children, ⟨_, placed⟩, ⟨n, m, blocks⟩, child, leads⟩

/-- The child of a redirect fails if its file is missing, and else goes on to realize the command
inside. -/
theorem Placed.realizing_openOnto (h : Governed world line) {path : String} {direction : Direction}
    (placed : Placed line q (openOnto path direction (node.process aliases)) es code) :
    ((direction = .input ∧ path ∈ world.missingFiles) ∧ world.reported q code = 1 ∧
        attemptsOf es = []) ∨
      (¬ (direction = .input ∧ path ∈ world.missingFiles) ∧
        ∃ children, Realizing aliases line node q es children code) := by
  obtain ⟨children, n, m, conduct, blocks, child⟩ := placed.children
  have answered := h.own_answered placed
  rcases openOnto_conduct conduct with ⟨e, own', hown, failed⟩ | ⟨⟨descriptor, hopened⟩, rest⟩
  · -- only a file that is missing cannot be opened
    have answer := answered (.openFile path direction (.error e)) (hown ▸ List.mem_cons_self)
    obtain ⟨rfl, hchildren, -, winds, -⟩ := failed.doomed (fail_doomed _)
    rw [List.map_eq_nil_iff] at hchildren
    subst hchildren
    obtain ⟨attempts, launched⟩ := account_of_windsUp winds
    have missing : direction = .input ∧ path ∈ world.missingFiles := by
      by_cases hm : direction = .input ∧ path ∈ world.missingFiles
      · exact hm
      · rw [World.Answers, if_neg hm] at answer
        obtain ⟨_, hok⟩ := answer
        cases hok
    refine .inl ⟨missing, ?_, ?_⟩
    · rw [h.reported_eq placed (by rw [hown]; exact launched)]
      rfl
    · rw [blocks.attemptsOf_alone, hown]
      exact congrArg _ attempts
  · -- no file to be read was missing, and nothing else can fail before the command inside
    have answer := answered _ hopened
    have found : ¬ (direction = .input ∧ path ∈ world.missingFiles) := fun hm => by
      rw [World.Answers, if_pos hm] at answer
      cases answer
    rcases rest with ⟨⟨failure, isCall, fatal⟩, -⟩ | leads
    · exact absurd isCall (h.not_isCall placed fatal)
    · exact .inr ⟨found, children, ⟨_, placed⟩, ⟨n, m, blocks⟩, child, leads⟩

namespace Realizing

variable {children : List Child}

/-- Below a process without children only its own attempts are made. -/
theorem attempts_alone (r : Realizing aliases line node q es [] code) :
    attemptsOf es = (account false (callsOf (some q) es)).attempts.map fun argv => (q, argv) := by
  obtain ⟨n, m, blocks⟩ := r.blocks
  exact blocks.attemptsOf_alone

/-- Below a process that tries nothing itself the attempts are those of its children, in order. -/
theorem attempts_children (r : Realizing aliases line node q es children code)
    (nothing : (account false (callsOf (some q) es)).attempts = []) :
    attemptsOf es = children.flatMap fun k => attemptsOf k.body := by
  obtain ⟨n, m, blocks⟩ := r.blocks
  exact blocks.attemptsOf_children (List.filterMap_eq_nil_iff.1 nothing)

end Realizing

/-! ### Stages -/

/-- A process runs as a stage: some process, `runner`, tries to run the program of the stage, and
the code is that of the stage. -/
def RunsAsStage (world : World) (aliases : AliasTable) (stage : Command) (q : Pid)
    (es : List Event) (code : Int) : Prop :=
  ∃ runner, world.reported q code = stageCode world aliases stage runner ∧
    attemptsOf es = attemptsBy world aliases [stage] [runner]

/-- A process that realizes a program runs as a stage by itself. -/
theorem Realizing.exec {argv : List String} {children : List Child} (h : Governed world line)
    (r : Realizing aliases line (.exec argv) q es children code) :
    RunsAsStage world aliases (.exec argv) q es code := by
  obtain ⟨p, placed⟩ := r.placed
  obtain ⟨own', isSuffix, told, conduct⟩ := r.leads
  obtain ⟨hchildren, run⟩ := launch_conduct conduct
  obtain rfl := List.map_eq_nil_iff.1 hchildren
  refine ⟨q, ?_⟩
  rw [stageCode_exec, attemptsBy_exec, r.attempts_alone, told]
  rcases run with ⟨words, rfl, told'⟩ | ⟨program, arguments, words, ran⟩
  · -- there are no words to run
    rw [h.reported_eq placed (by rw [told, told']), words, told']
    exact ⟨rfl, rfl⟩
  rw [words]
  rcases ran with rfl | ⟨e, own'', rfl, failed⟩
  · -- the program takes the place of the process, so it is not missing
    have answer := h.own_answered placed (.exec (program :: arguments) (.ok code))
      (isSuffix.mem (by simp))
    by_cases missing : program ∈ world.missingPrograms
    · rw [World.Answers, List.headD_cons, if_pos missing] at answer
      cases answer
    · rw [World.Answers, List.headD_cons, if_neg missing] at answer
      cases answer
      exact ⟨(if_neg missing).symm, rfl⟩
  · -- the program is missing
    have answer := h.own_answered placed (.exec (program :: arguments) (.error e))
      (isSuffix.mem (by simp))
    obtain ⟨rfl, -, -, winds, -⟩ := failed.doomed (fail_doomed _)
    obtain ⟨attempts, launched⟩ := account_of_windsUp winds
    by_cases missing : program ∈ world.missingPrograms
    · rw [World.Answers, List.headD_cons, if_pos missing] at answer
      cases answer
      rw [h.reported_eq placed (by rw [told]; exact launched)]
      refine ⟨(if_pos missing).symm, ?_⟩
      exact congrArg (fun argvs => ((program :: arguments) :: argvs).map fun argv => (q, argv))
        attempts
    · rw [World.Answers, List.headD_cons, if_neg missing] at answer
      cases answer

/-- The process of a redirect runs as the stage that it is, if the command inside does so in any
process. -/
theorem Realizing.redirect {inner : Command} {direction : Direction} {path : String}
    {children : List Child} (h : Governed world line)
    (ih : ∀ q es children code, Realizing aliases line inner q es children code →
      RunsAsStage world aliases inner q es code)
    (r : Realizing aliases line (.redirect inner direction path) q es children code) :
    RunsAsStage world aliases (.redirect inner direction path) q es code := by
  obtain ⟨p, placed⟩ := r.placed
  obtain ⟨own', isSuffix, told, conduct⟩ := r.leads
  rcases redirect_conduct conduct with
    ⟨⟨failure, isCall, fatal⟩, -⟩ | ⟨pid, status, hchildren, rfl, told'⟩
  · exact absurd isCall (h.not_isCall placed (told ▸ fatal))
  rw [told'] at told
  obtain ⟨k, rfl, hk⟩ := List.map_eq_singleton_iff.1 hchildren
  obtain ⟨rfl, hprocess⟩ := Prod.mk.inj hk
  have child := r.child k List.mem_cons_self
  -- the process is reported with what it heard of its child
  have reported : world.reported q status.code = world.reported k.pid k.code := by
    rw [h.reported_eq placed (by rw [told])]
    exact h.status_code placed child (by simp [told])
  have attempts : attemptsOf es = attemptsOf k.body := by
    rw [r.attempts_children (by rw [told]), List.flatMap_singleton]
  rw [hprocess] at child
  rw [RunsAsStage, reported, attempts]
  rcases child.realizing_openOnto h with ⟨missing, hcode, nothing⟩ | ⟨found, children', realizing⟩
  · have lacks : world.lacksInput (.redirect inner direction path) :=
      lacksInput_redirect.2 (.inl missing)
    exact ⟨q, by rw [hcode, stageCode, if_pos lacks],
      by rw [nothing]; simp [attemptsBy, stageAttempt?, lacks]⟩
  · obtain ⟨runner, hcode, hattempts⟩ := ih _ _ _ _ realizing
    refine ⟨runner, by rw [hcode, stageCode_redirect found], ?_⟩
    rw [hattempts]
    simp only [attemptsBy, List.zip_cons_cons, List.filterMap_cons, stageAttempt?_redirect found]

/-- **Code of a stage.** -/
theorem Realizing.stage {stage : Command} (hs : stage.Stage) {children : List Child}
    (h : Governed world line) (r : Realizing aliases line stage q es children code) :
    RunsAsStage world aliases stage q es code := by
  induction hs generalizing q es children code with
  | exec => exact r.exec h
  | redirect _ _ ih => exact r.redirect h fun q es children code r' => ih r'

/-! ### Pipelines -/

/-- A process runs as a pipeline: there is a process for each stage, and the code is that of the
stages. -/
def RunsAsPipeline (world : World) (aliases : AliasTable) (node : Command) (q : Pid)
    (es : List Event) (code : Int) : Prop :=
  ∃ runners : List Pid, runners.length = node.stages.length ∧
    world.reported q code
      = pipelineCode (List.zipWith (stageCode world aliases) node.stages runners) ∧
    attemptsOf es = attemptsBy world aliases node.stages runners

/-- A stage is a pipeline by itself. -/
theorem RunsAsStage.pipeline {stage : Command} (hs : stage.Stage)
    (h : RunsAsStage world aliases stage q es code) :
    RunsAsPipeline world aliases stage q es code := by
  obtain ⟨runner, hcode, hattempts⟩ := h
  rw [RunsAsPipeline, hs.stages_eq]
  exact ⟨[runner], rfl, by simpa using hcode, hattempts⟩

/-- The process of a pipe runs as the pipeline of its sides. -/
theorem Realizing.pipe {left right : Command} {children : List Child} (h : Governed world line)
    (leftRuns : ∀ q es children code, Realizing aliases line left q es children code →
      RunsAsStage world aliases left q es code)
    (rightRuns : ∀ q es children code, Realizing aliases line right q es children code →
      RunsAsPipeline world aliases right q es code)
    (r : Realizing aliases line (.pipe left right) q es children code) :
    RunsAsPipeline world aliases (.pipe left right) q es code := by
  obtain ⟨p, placed⟩ := r.placed
  obtain ⟨own', isSuffix, told, conduct⟩ := r.leads
  rcases pipe_conduct conduct with
    ⟨⟨failure, isCall, fatal⟩, -⟩ |
      ⟨ends, leftPid, rightPid, leftStatus, rightStatus, hchildren, rfl, told'⟩
  · exact absurd isCall (h.not_isCall placed (told ▸ fatal))
  rw [told'] at told
  -- no call has failed, so there are two children, and what was heard of them are their codes
  obtain ⟨k, rest, rfl, hk, hrest⟩ := List.map_eq_cons_iff.1 hchildren
  obtain ⟨k', rfl, hk'⟩ := List.map_eq_singleton_iff.1 hrest
  obtain ⟨rfl, hleft⟩ := Prod.mk.inj hk
  obtain ⟨rfl, hright⟩ := Prod.mk.inj hk'
  have leftChild := r.child k (by simp)
  have rightChild := r.child k' (by simp)
  have leftCode : leftStatus.code = world.reported k.pid k.code :=
    h.status_code placed leftChild (by simp [told])
  have rightCode : rightStatus.code = world.reported k'.pid k'.code :=
    h.status_code placed rightChild (by simp [told])
  -- each child has first to attach its end, and then runs as its side
  rw [hleft] at leftChild
  rw [hright] at rightChild
  obtain ⟨_, realizing⟩ := leftChild.realizing_attach h
  obtain ⟨_, realizing'⟩ := rightChild.realizing_attach h
  obtain ⟨runner, hcode, hattempts⟩ := leftRuns _ _ _ _ realizing
  obtain ⟨runners, hlength, hcode', hattempts'⟩ := rightRuns _ _ _ _ realizing'
  refine ⟨runner :: runners, by simp [Command.stages, hlength], ?_, ?_⟩
  -- the statuses are combined as the code of one more stage on the left is
  · have others : List.zipWith (stageCode world aliases) right.stages runners ≠ [] := by
      obtain ⟨stage, stages, hstages⟩ := List.exists_cons_of_ne_nil right.stages_ne_nil
      rw [hstages] at hlength ⊢
      obtain ⟨runner', runners', rfl⟩ := List.exists_cons_of_length_eq_add_one hlength
      simp
    rw [h.reported_eq placed (by rw [told]), ChildStatus.code_combine, leftCode, rightCode,
      hcode, hcode', Command.stages, List.zipWith_cons_cons, pipelineCode_cons _ others]
  · rw [r.attempts_children (by rw [told]), Command.stages, attemptsBy_cons, ← hattempts,
      ← hattempts']
    simp

/-- **Code of a pipeline.** -/
theorem Realizing.pipeline (hn : node.Pipeline) {children : List Child} (h : Governed world line)
    (r : Realizing aliases line node q es children code) :
    RunsAsPipeline world aliases node q es code := by
  induction hn generalizing q es children code with
  | stage hs => exact (r.stage hs h).pipeline hs
  | pipe hl _ ih =>
    exact r.pipe h (fun q es children code r' => r'.stage hl h) fun q es children code r' => ih r'

/-! ### Lines -/

/-- A line in a world without faults is governed by it. -/
theorem traceLine_governed (session : Session) (command : Command) (s : RehearsalStage)
    (faultless : s.recorder.world.Faultless)
    (signaled : ∀ pid signal, s.recorder.world.signals.lookup pid = some signal →
      callsOf (some pid) (traceLine session command s) ≠ [] →
      ∃ argv c, .exec argv (.ok c) ∈ callsOf (some pid) (traceLine session command s)) :
    Governed s.recorder.world (traceLine session command s) where
  answered := by
    obtain ⟨_, _, runs⟩ := traceLine_runs session command s
    refine runs.answered faultless (Process.ofLine_reaps session command) (by simp) ?_
    exact fun pid c hended => mem_callsOf.2 ⟨_, hended, rfl, rfl⟩
  signaled := signaled

/-- **Pipelines end with the code of their stages.** A line is read as a pipeline and executed in a
world without faults, where only processes that a program took the place of are killed.  The
execution succeeds, and its code is the code of the rightmost stage that counts as failed; the
programs of the stages are tried in order, each by a process of its own. -/
theorem pipeline_ends (session : Session) (text : String) (command : Command) (s : RehearsalStage)
    (read : Command.ofLine text = .ok command) (named : command.isEmpty = false)
    (faultless : s.recorder.world.Faultless)
    (signaled : ∀ pid signal, s.recorder.world.signals.lookup pid = some signal →
      callsOf (some pid) (traceLine session command s) ≠ [] →
      ∃ argv c, .exec argv (.ok c) ∈ callsOf (some pid) (traceLine session command s)) :
    let world := s.recorder.world
    let line := traceLine session command s
    s.recorder.Follows line (execute session command s).2.recorder ∧
      ∃ (status : ChildStatus) (runners : List Pid),
        (execute session command s).1 = .ok (some status) ∧
        runners.length = command.stages.length ∧
        status.code
          = pipelineCode (List.zipWith (stageCode world session.aliases) command.stages runners) ∧
        attemptsOf line = attemptsBy world session.aliases command.stages runners := by
  intro world line
  have h := traceLine_governed session command s faultless signaled
  have isPipeline : command.Pipeline := by
    rcases canonical_of_ofLine read with rfl | isPipeline
    · cases named
    · exact isPipeline
  refine ⟨execute_follows session command s, ?_⟩
  rcases execute_shell session command s with
    ⟨blank, -⟩ | ⟨e, -, shell⟩ | ⟨pid, e, -, shell⟩ | ⟨pid, status, result, shell⟩
  · cases named.symm.trans blank
  · -- without a fault the fork of the shell does not fail
    have calls : callsOf none line = [.note (.executing command), .fork (.error e)] :=
      congrArg (callsOf none) shell
    obtain ⟨_, hok⟩ := h.calls_answered none (.fork (.error e)) (by rw [calls]; simp)
    cases hok
  · obtain ⟨_, _, _, hok, _⟩ := h.calls_answered none (.wait pid (.error e)) (by rw [shell]; simp)
    cases hok
  · -- the one child of the shell realizes the command, and its code is the one that was heard
    obtain ⟨children, n, m, blocks, started, shape⟩ := traceLine_children session command s
    obtain ⟨k, rfl, rfl⟩ : ∃ k, children = [k] ∧ pid = k.pid := by
      rw [shell] at started
      obtain ⟨k, hk, hpid⟩ := List.map_eq_singleton_iff.1 started.symm
      exact ⟨k, hk, hpid.symm⟩
    obtain ⟨-, placed⟩ := shape k List.mem_cons_self
    obtain ⟨c, _, hended, hok, hcode⟩ :=
      h.calls_answered none (.wait k.pid (.ok status)) (by rw [shell]; simp)
    cases hok
    obtain rfl := placed.code_eq hended
    obtain ⟨_, realizing⟩ := placed.realizing
    obtain ⟨runners, hlength, hreported, hattempts⟩ := realizing.pipeline isPipeline h
    refine ⟨status, runners, result, hlength, hcode.trans hreported, ?_⟩
    have nothing : ∀ a ∈ callsOf none line, a.attempt? = none := by
      rw [shell]
      simp [Action.attempt?]
    rw [blocks.attemptsOf_children nothing, List.flatMap_singleton, hattempts]

/-- The first program dies for want of a reader, which the process of its redirect passes on as a
code; the second one, an alias, fails, and the last one succeeds, without its blank word. -/
theorem pipeline_ends_broken :
    let world : World := { exitCodes := [("ls", 3)], signals := [(102, .sigpipe)] }
    let start : RehearsalStage := ⟨{ world := world }, .empty⟩
    let session : Session := ⟨"/", .defaults⟩
    let text := "yes < in | ll x | wc \" \""
    let command : Command :=
      .pipe (.redirect (.exec ["yes"]) .input "in") (.pipe (.exec ["ll", "x"]) (.exec ["wc", " "]))
    let line := traceLine session command start
    Command.ofLine text = .ok command ∧ command.isEmpty = false ∧ world.Faultless ∧
      (∀ pid signal, world.signals.lookup pid = some signal → callsOf (some pid) line ≠ [] →
        ∃ argv c, .exec argv (.ok c) ∈ callsOf (some pid) line) ∧
      attemptsOf line = [(102, ["yes"]), (104, ["ls", "-l", "x"]), (105, ["wc"])] ∧
      ∃ status, (execute session command start).1 = .ok (some status) ∧ status.code = 3 := by
  intro world start session text command line
  have read : Command.ofLine text = .ok command := by decide +kernel
  have faultless : world.Faultless := ⟨rfl, rfl⟩
  have signaled : ∀ pid signal, world.signals.lookup pid = some signal →
      callsOf (some pid) line ≠ [] → ∃ argv c, .exec argv (.ok c) ∈ callsOf (some pid) line := by
    intro pid signal hsignal _
    by_cases hpid : pid = 102
    · subst hpid
      have launched : (callsOf (some 102) line).findSome? Action.launched? = some 0 := by
        decide +kernel
      obtain ⟨argv, hmem⟩ := Action.exists_exec_of_launched launched
      exact ⟨argv, 0, hmem⟩
    · have hne : (pid == 102) = false := by simpa using hpid
      simp [world, List.lookup_cons, hne] at hsignal
  have attempts : attemptsOf line
      = [(102, ["yes"]), (104, ["ls", "-l", "x"]), (105, ["wc"])] := by
    decide +kernel
  obtain ⟨-, status, runners, result, hlength, hcode, hattempts⟩ :=
    pipeline_ends session text command start read rfl faultless signaled
  obtain ⟨a, b, c, rfl⟩ : ∃ a b c, runners = [a, b, c] := by
    match runners, hlength with
    | [a, b, c], _ => exact ⟨a, b, c, rfl⟩
  -- the processes of the stages are those that try to run the programs
  have runs : [(102, ["yes"]), (104, ["ls", "-l", "x"]), (105, ["wc"])]
      = [(a, ["yes"]), (b, ["ls", "-l", "x"]), (c, ["wc"])] :=
    attempts.symm.trans hattempts
  cases runs
  exact ⟨read, rfl, faultless, signaled, attempts, status, result,
    hcode.trans (by decide +kernel)⟩

end LineShell
