import LineShell.Proofs.Trace.Growth

namespace LineShell

/-!
# What a process does itself

In a trace the calls of a process stand between those of its descendants.  Taken by themselves they
are a way through the tree of calls of the process, and the rest of the trace is made of one block
for each child that it starts.

* `callsOf` — the calls of one process in a trace.
* `Process.Conduct` — the ways through a tree of calls, whatever the calls result in.
* `Blocks` — a trace as calls of one process with the blocks of its children between them.
* `Runs.blocks` — a run is a way through the tree of calls with a block for each child.
* `Placed` — a process with its place in a line; so have its children (`Placed.children`).
-/

/-! ### The calls of one process -/

/-- What a process does itself in a trace, its end included. -/
def callsOf (q : Caller) (es : List Event) : List Action :=
  es.filterMap fun e => if e.caller = q then some e.action else none

@[simp]
theorem callsOf_nil (q : Caller) : callsOf q [] = [] := rfl

@[simp]
theorem callsOf_append (q : Caller) (es es' : List Event) :
    callsOf q (es ++ es') = callsOf q es ++ callsOf q es' :=
  List.filterMap_append

/-- An event of the process itself is the first of its calls. -/
theorem callsOf_cons_self {q : Caller} {e : Event} (h : e.caller = q) (es : List Event) :
    callsOf q (e :: es) = e.action :: callsOf q es := by
  rw [callsOf, List.filterMap_cons, if_pos h]
  rfl

@[simp]
theorem callsOf_own (q : Caller) (action : Action) (entry : Option Call) (es : List Event) :
    callsOf q (⟨q, action, entry⟩ :: es) = action :: callsOf q es :=
  callsOf_cons_self rfl es

@[simp]
theorem callsOf_started (q : Caller) (pid : Pid) (es : List Event) :
    callsOf q (.started q pid :: es) = .fork (.ok pid) :: callsOf q es :=
  callsOf_own ..

@[simp]
theorem callsOf_ended (pid : Pid) (code : Int) (es : List Event) :
    callsOf (some pid) (.ended pid code :: es) = .exit code :: callsOf (some pid) es :=
  callsOf_own ..

/-- An event of another process is none of its calls. -/
theorem callsOf_cons_of_ne {q : Caller} {e : Event} (h : e.caller ≠ q) (es : List Event) :
    callsOf q (e :: es) = callsOf q es := by
  rw [callsOf, List.filterMap_cons, if_neg h]
  rfl

/-- A process makes no call in a trace of others. -/
theorem callsOf_eq_nil {q : Caller} {es : List Event} (h : ∀ e ∈ es, e.caller ≠ q) :
    callsOf q es = [] := by
  induction es with
  | nil => rfl
  | cons e es ih =>
    rw [callsOf_cons_of_ne (h e List.mem_cons_self)]
    exact ih fun x hx => h x (List.mem_cons_of_mem _ hx)

/-- The calls of a process are the actions of its events. -/
theorem mem_callsOf {q : Caller} {es : List Event} {action : Action} :
    action ∈ callsOf q es ↔ ∃ e ∈ es, e.caller = q ∧ e.action = action := by
  simp [callsOf]

/-! ### Ways through a tree of calls -/

/-- One call of a process after which it goes on as another one; a report to the user is none. -/
inductive Process.Move : Process → List Action → Process → Prop
  | forkFailed {child next e} : Move (.fork child next) [.fork (.error e)] (next (.error e))
  | pipe {next result} : Move (.pipe next) [.pipe result] (next result)
  | dup2 {source target next result} :
      Move (.dup2 source target next) [.dup2 source target result] (next result)
  | close {descriptor next result} :
      Move (.close descriptor next) [.close descriptor result] (next result)
  | openFile {path direction next result} :
      Move (.openFile path direction next) [.openFile path direction result] (next result)
  | execFailed {argv next e} : Move (.exec argv next) [.exec argv (.error e)] (next e)
  | wait {pid next result} : Move (.wait pid next) [.wait pid result] (next result)
  | note {notice next} : Move (.note notice next) [.note notice] next
  | report {failure next} : Move (.report failure next) [] next

/-- A way through the tree of calls of a process: the calls with what came of them, the children
started on the way with what they run, and the code at the end. -/
inductive Process.Conduct : Process → List Action → List (Pid × Process) → Int → Prop
  | exit {code} : Conduct (.exit code) [] [] code
  | exec {argv next code} : Conduct (.exec argv next) [.exec argv (.ok code)] [] code
  | move {p as p' as' children code} (first : p.Move as p')
      (rest : Conduct p' as' children code) : Conduct p (as ++ as') children code
  | fork {child next pid as children code} (rest : Conduct (next (.ok pid)) as children code) :
      Conduct (.fork child next) (.fork (.ok pid) :: as) ((pid, child) :: children) code

namespace Process

variable {own : List Action} {children : List (Pid × Process)} {code : Int}

/-- A process that ends makes no call. -/
theorem conduct_exit {c : Int} :
    (exit c).Conduct own children code ↔ own = [] ∧ children = [] ∧ code = c := by
  constructor
  · rintro (_ | _ | ⟨⟨⟩, _⟩ | _)
    exact ⟨rfl, rfl, rfl⟩
  · rintro ⟨rfl, rfl, rfl⟩
    exact .exit

/-- A process that forks goes on behind the failure, or with a child. -/
theorem conduct_fork {child : Process} {next : Except Errno Pid → Process} :
    (fork child next).Conduct own children code ↔
      (∃ e own', own = .fork (.error e) :: own' ∧
        (next (.error e)).Conduct own' children code) ∨
      ∃ pid own' children', own = .fork (.ok pid) :: own' ∧ children = (pid, child) :: children' ∧
        (next (.ok pid)).Conduct own' children' code := by
  constructor
  · rintro (_ | _ | ⟨⟨⟩, rest⟩ | rest)
    · exact .inl ⟨_, _, rfl, rest⟩
    · exact .inr ⟨_, _, _, rfl, rfl, rest⟩
  · rintro (⟨e, own', rfl, rest⟩ | ⟨pid, own', children', rfl, rfl, rest⟩)
    · exact .move .forkFailed rest
    · exact .fork rest

/-- A process that makes a pipe goes on with the result. -/
theorem conduct_pipe {next : Except Errno PipeEnds → Process} :
    (pipe next).Conduct own children code ↔
      ∃ result own', own = .pipe result :: own' ∧ (next result).Conduct own' children code := by
  constructor
  · rintro (_ | _ | ⟨⟨⟩, rest⟩ | _)
    exact ⟨_, _, rfl, rest⟩
  · rintro ⟨result, own', rfl, rest⟩
    exact .move .pipe rest

theorem conduct_dup2 {source target : Descriptor} {next : Except Errno Unit → Process} :
    (dup2 source target next).Conduct own children code ↔
      ∃ result own', own = .dup2 source target result :: own' ∧
        (next result).Conduct own' children code := by
  constructor
  · rintro (_ | _ | ⟨⟨⟩, rest⟩ | _)
    exact ⟨_, _, rfl, rest⟩
  · rintro ⟨result, own', rfl, rest⟩
    exact .move .dup2 rest

theorem conduct_close {descriptor : Descriptor} {next : Except Errno Unit → Process} :
    (close descriptor next).Conduct own children code ↔
      ∃ result own', own = .close descriptor result :: own' ∧
        (next result).Conduct own' children code := by
  constructor
  · rintro (_ | _ | ⟨⟨⟩, rest⟩ | _)
    exact ⟨_, _, rfl, rest⟩
  · rintro ⟨result, own', rfl, rest⟩
    exact .move .close rest

theorem conduct_openFile {path : String} {direction : Direction}
    {next : Except Errno Descriptor → Process} :
    (openFile path direction next).Conduct own children code ↔
      ∃ result own', own = .openFile path direction result :: own' ∧
        (next result).Conduct own' children code := by
  constructor
  · rintro (_ | _ | ⟨⟨⟩, rest⟩ | _)
    exact ⟨_, _, rfl, rest⟩
  · rintro ⟨result, own', rfl, rest⟩
    exact .move .openFile rest

/-- A process that tries a program ends as the program does, or goes on behind the failure. -/
theorem conduct_exec {argv : List String} {next : Errno → Process} :
    (exec argv next).Conduct own children code ↔
      (own = [.exec argv (.ok code)] ∧ children = []) ∨
      ∃ e own', own = .exec argv (.error e) :: own' ∧ (next e).Conduct own' children code := by
  constructor
  · rintro (_ | _ | ⟨⟨⟩, rest⟩ | _)
    · exact .inl ⟨rfl, rfl⟩
    · exact .inr ⟨_, _, rfl, rest⟩
  · rintro (⟨rfl, rfl⟩ | ⟨e, own', rfl, rest⟩)
    · exact .exec
    · exact .move .execFailed rest

/-- A process that waits goes on with what it has heard. -/
theorem conduct_wait {pid : Pid} {next : Except Errno ChildStatus → Process} :
    (wait pid next).Conduct own children code ↔
      ∃ result own', own = .wait pid result :: own' ∧
        (next result).Conduct own' children code := by
  constructor
  · rintro (_ | _ | ⟨⟨⟩, rest⟩ | _)
    exact ⟨_, _, rfl, rest⟩
  · rintro ⟨result, own', rfl, rest⟩
    exact .move .wait rest

/-- A process that notes something goes on. -/
theorem conduct_note {notice : Notice} {next : Process} :
    (note notice next).Conduct own children code ↔
      ∃ own', own = .note notice :: own' ∧ next.Conduct own' children code := by
  constructor
  · rintro (_ | _ | ⟨⟨⟩, rest⟩ | _)
    exact ⟨_, rfl, rest⟩
  · rintro ⟨own', rfl, rest⟩
    exact .move .note rest

/-- A report is no call. -/
theorem conduct_report {failure : Failure} {next : Process} :
    (report failure next).Conduct own children code ↔ next.Conduct own children code := by
  constructor
  · rintro (_ | _ | ⟨⟨⟩, rest⟩ | _)
    exact rest
  · exact .move .report

end Process

/-- A call that returns at once is one call of the process. -/
theorem Step.move {self : Caller} {p p' : Process} {r r' : Recorder} {es : List Event}
    (h : Step self p r es p' r') : p.Move (callsOf self es) p' := by
  cases h with
  | report => exact .report
  | forkFailed | pipe | dup2 | close | openFile | execFailed | wait | note =>
    rw [callsOf_own, callsOf_nil]
    constructor

/-! ### Blocks -/

/-- A child in a trace: its number, what it runs, the recorders before and behind its run, and the
events and the code of that run. -/
structure Child where
  pid : Pid
  process : Process
  start : Recorder
  body : List Event
  code : Int
  finish : Recorder

/-- The data of a child are those of a run. -/
structure Child.IsRun (k : Child) : Prop where
  runs : Runs (some k.pid) k.process k.start k.body k.code k.finish
  nextPid : k.start.nextPid = k.pid + 1

/-- The numbers that a child and its descendants have. -/
def Child.Owns (k : Child) (q : Pid) : Prop :=
  k.pid ≤ q ∧ q < k.finish.nextPid

/-- A trace of `self` is made of its own calls and of a block for each child; the numbers of the
children and of all below them go from the first one up to the last one. -/
inductive Blocks (self : Caller) : Pid → List Event → List Child → Pid → Prop
  | nil {n} : Blocks self n [] [] n
  | call {n e es children m} (own : e.caller = self) (plain : e.IsPlain)
      (rest : Blocks self n es children m) : Blocks self n (e :: es) children m
  | child {k es children m} (run : k.IsRun) (rest : Blocks self k.finish.nextPid es children m) :
      Blocks self k.pid (.started self k.pid :: (k.body ++ .ended k.pid k.code :: es))
        (k :: children) m

namespace Child.IsRun

variable {k : Child}

/-- A child has its number before any that it hands out. -/
theorem lt (h : k.IsRun) : k.pid < k.finish.nextPid := by
  have := h.runs.follows.nextPid
  have := h.nextPid
  lia

/-- In its block only the child and its descendants make calls. -/
theorem owns (h : k.IsRun) : ∀ e ∈ k.body, ∃ q, e.caller = some q ∧ k.Owns q := by
  intro e he
  have hlt := h.lt
  rcases (h.runs.within e he).caller with hself | ⟨q, hq, hle, hq'⟩
  · exact ⟨k.pid, hself, Int.le_refl _, hlt⟩
  · have := h.nextPid
    exact ⟨q, hq, by lia, hq'⟩

/-- A process that is no child of the block makes no call in it. -/
theorem callsOf_eq_nil (h : k.IsRun) {q : Caller} (hq : ∀ pid, q = some pid → ¬ k.Owns pid) :
    callsOf q k.body = [] := by
  refine LineShell.callsOf_eq_nil fun e he heq => ?_
  obtain ⟨pid, hpid, howns⟩ := h.owns e he
  exact hq pid (heq.symm.trans hpid) howns

end Child.IsRun

namespace Blocks

variable {self : Caller} {n m : Pid} {es : List Event} {children : List Child}

/-- Blocks one behind the other hand numbers out upwards. -/
theorem le (h : Blocks self n es children m) : n ≤ m := by
  induction h with
  | nil => exact Int.le_refl _
  | call _ _ _ ih => exact ih
  | child run _ ih => exact Int.le_of_lt (Int.lt_of_lt_of_le run.lt ih)

/-- Calls of the process itself in front of a trace with blocks. -/
theorem calls {es' : List Event} (h : Blocks self n es children m)
    (own : ∀ e ∈ es', e.caller = self ∧ e.IsPlain) : Blocks self n (es' ++ es) children m := by
  induction es' with
  | nil => exact h
  | cons e es' ih =>
    obtain ⟨he, hes⟩ := List.forall_mem_cons.1 own
    exact .call he.1 he.2 (ih hes)

/-- Each of the blocks is a run of its own. -/
theorem isRun (h : Blocks self n es children m) : ∀ k ∈ children, k.IsRun := by
  induction h with
  | nil => simp
  | call _ _ _ ih => exact ih
  | child run _ ih => exact List.forall_mem_cons.2 ⟨run, ih⟩

/-- The numbers of the children lie between those of the trace. -/
theorem bounds (h : Blocks self n es children m) :
    ∀ k ∈ children, n ≤ k.pid ∧ k.finish.nextPid ≤ m := by
  induction h with
  | nil => simp
  | call _ _ _ ih => exact ih
  | @child k es children m run rest ih =>
    have hlt := run.lt
    refine List.forall_mem_cons.2 ⟨⟨Int.le_refl _, rest.le⟩, fun x hx => ?_⟩
    have := ih x hx
    exact ⟨by lia, this.2⟩

/-- Every process that is started is a child or is started in the block of one. -/
theorem started (h : Blocks self n es children m) {e : Event} (he : e ∈ es) {pid : Pid}
    (hfork : e.entry = some (.fork pid)) :
    ∃ k ∈ children, pid = k.pid ∨ ∃ x ∈ k.body, x.entry = some (.fork pid) := by
  induction h with
  | nil => cases he
  | call own plain rest ih =>
    rcases List.mem_cons.1 he with rfl | he
    · exact absurd hfork (plain.entry_fork pid)
    · exact ih he
  | @child k es children m run rest ih =>
    rcases mem_child.1 he with rfl | he | rfl | he
    · cases hfork
      exact ⟨k, List.mem_cons_self, .inl rfl⟩
    · exact ⟨k, List.mem_cons_self, .inr ⟨e, he, hfork⟩⟩
    · cases hfork
    · obtain ⟨x, hx, hpid⟩ := ih he
      exact ⟨x, List.mem_cons_of_mem _ hx, hpid⟩

/-- A process with a number from before makes no call in the blocks, and one with a number from
behind makes none at all. -/
theorem callsOf_eq_nil (h : Blocks self n es children m) {q : Pid} (hself : self ≠ some q)
    (hq : q < n ∨ m ≤ q) : callsOf (some q) es = [] := by
  induction h with
  | nil => rfl
  | @call n e es children m own plain rest ih =>
    rw [callsOf_cons_of_ne (own ▸ hself)]
    exact ih hq
  | @child k es children m run rest ih =>
    have hlt := run.lt
    have hle := rest.le
    -- the child and those below it have numbers from the range of the block
    have hbody : callsOf (some q) k.body = [] := run.callsOf_eq_nil fun pid hpid howns => by
      cases hpid
      obtain ⟨h₁, h₂⟩ := howns
      lia
    have hended : some k.pid ≠ some q := fun heq => by cases heq; lia
    rw [callsOf_cons_of_ne hself, callsOf_append, hbody, List.nil_append,
      callsOf_cons_of_ne hended]
    exact ih (by lia)

/-- What a process makes of a trace is what it makes of the block that it belongs to. -/
theorem callsOf_block (h : Blocks self n es children m) {k : Child} (hk : k ∈ children) {q : Pid}
    (howns : k.Owns q) (hself : self ≠ some q) :
    callsOf (some q) es
      = callsOf (some q) k.body ++ if q = k.pid then [.exit k.code] else [] := by
  induction h with
  | nil => cases hk
  | @call n e es children m own plain rest ih =>
    rw [callsOf_cons_of_ne (own ▸ hself)]
    exact ih hk
  | @child k' es children m run rest ih =>
    rw [callsOf_cons_of_ne hself, callsOf_append]
    obtain ⟨hle, hlt⟩ := howns
    rcases List.mem_cons.1 hk with rfl | hk
    · rw [← List.singleton_append, callsOf_append, rest.callsOf_eq_nil hself (.inl hlt),
        List.append_nil]
      split
      case isTrue heq => rw [heq, callsOf_ended, callsOf_nil]
      case isFalse hne =>
        rw [callsOf_cons_of_ne fun heq => hne (Option.some.inj heq).symm]
        rfl
    · -- the block of the process comes later
      have hbounds := (rest.bounds k hk).1
      have hrun := run.lt
      have hbody : callsOf (some q) k'.body = [] := run.callsOf_eq_nil fun pid hpid howns => by
        cases hpid
        have := howns.2
        lia
      have hended : some k'.pid ≠ some q := fun heq => by cases heq; lia
      rw [hbody, List.nil_append, callsOf_cons_of_ne hended]
      exact ih hk

end Blocks

/-! ### Runs -/

/-- **Blocks of a run.** A run is a way through the tree of calls of its process, with a block in
the trace for each child that is started on the way. -/
theorem Runs.blocks {self : Caller} {p : Process} {r r' : Recorder} {es : List Event} {code : Int}
    (h : Runs self p r es code r') (self_lt : ∀ q, self = some q → q < r.nextPid) :
    ∃ children : List Child,
      p.Conduct (callsOf self es) (children.map fun k => (k.pid, k.process)) code ∧
        Blocks self r.nextPid es children r'.nextPid ∧ ∀ k ∈ children, k.start.world = r.world := by
  induction h with
  | exit => exact ⟨[], .exit, .nil, by simp⟩
  | @exec self argv next r code r' h =>
    have adds := r.exec_adds argv
    rw [h] at adds
    refine ⟨[], ?_, adds.nextPid ▸ .call rfl (by apply Event.isPlain_entry <;> simp) .nil, by simp⟩
    rw [callsOf_own]
    exact .exec
  | @step self p r es p' r' es' code r'' first rest ih =>
    obtain ⟨children, conduct, blocks, worlds⟩ := ih (first.nextPid.1 ▸ self_lt)
    refine ⟨children, ?_, ?_, first.follows.world ▸ worlds⟩
    · rw [callsOf_append]
      exact .move first.move conduct
    · exact (first.nextPid.1 ▸ blocks).calls first.plain
  | @fork self child next r pid r₁ body c r₂ es code r' begun inner rest ihi ihr =>
    obtain ⟨rfl, hnext, -, started⟩ := Recorder.beginFork_ok begun self
    have run : (Child.mk r.nextPid child r₁ body c r₂).IsRun := ⟨inner, hnext⟩
    have hlt : r.nextPid < r₂.nextPid := run.lt
    obtain ⟨children, conduct, blocks, worlds⟩ := ihr fun q hq => by
      have := self_lt q hq
      exact Int.lt_trans this hlt
    -- the calls in the block of the child are none of the process, whose number is a lower one
    have hbody : callsOf self body = [] := run.callsOf_eq_nil fun pid hpid howns => by
      have := self_lt pid hpid
      have := howns.1
      lia
    have hended : some r.nextPid ≠ self := fun heq => by have := self_lt _ heq.symm; lia
    refine ⟨⟨r.nextPid, child, r₁, body, c, r₂⟩ :: children, ?_, .child run blocks, ?_⟩
    · rw [callsOf_started, callsOf_append, hbody, List.nil_append, callsOf_cons_of_ne hended]
      exact .fork conduct
    · have hworld : (r₂.endFork r.nextPid c).world = r.world :=
        inner.follows.world.trans started.world
      exact List.forall_mem_cons.2 ⟨started.world, hworld ▸ worlds⟩

/-! ### Processes of a line -/

/-- A process has its place in a line: what it and the processes below it do in the line is what
they do in a run, and then the process ends. -/
structure Placed (line : List Event) (q : Pid) (p : Process) (es : List Event) (code : Int) :
    Prop where
  own : callsOf (some q) line = callsOf (some q) es ++ [.exit code]
  below : ∃ r r', Runs (some q) p r es code r' ∧ q < r.nextPid ∧
    ∀ x, r.nextPid ≤ x → x < r'.nextPid → callsOf (some x) line = callsOf (some x) es

/-- The children in a trace that has its place in a line have theirs. -/
theorem Blocks.placed {self : Caller} {n m : Pid} {es line : List Event} {children : List Child}
    (h : Blocks self n es children m) (self_lt : ∀ q, self = some q → q < n)
    (inside : ∀ x, n ≤ x → x < m → callsOf (some x) line = callsOf (some x) es) :
    ∀ k ∈ children, Placed line k.pid k.process k.body k.code := by
  intro k hk
  have run := h.isRun k hk
  have hlt := run.lt
  have hnext := run.nextPid
  obtain ⟨hle, hle'⟩ := h.bounds k hk
  have block : ∀ x, k.Owns x → callsOf (some x) line
      = callsOf (some x) k.body ++ if x = k.pid then [.exit k.code] else [] := by
    rintro x ⟨h₁, h₂⟩
    rw [inside x (by lia) (by lia)]
    exact h.callsOf_block hk ⟨h₁, h₂⟩ fun heq => by have := self_lt x heq; lia
  refine ⟨?_, k.start, k.finish, run.runs, by lia, fun x h₁ h₂ => ?_⟩
  · rw [block k.pid ⟨Int.le_refl _, hlt⟩, if_pos rfl]
  · rw [block x ⟨by lia, h₂⟩, if_neg (by lia), List.append_nil]

/-- A process of a line takes a way through its tree of calls, and its children are processes of
the line. -/
theorem Placed.children {line : List Event} {q : Pid} {p : Process} {es : List Event} {code : Int}
    (h : Placed line q p es code) :
    ∃ (children : List Child) (n m : Pid),
      p.Conduct (callsOf (some q) es) (children.map fun k => (k.pid, k.process)) code ∧
        Blocks (some q) n es children m ∧
        ∀ k ∈ children, Placed line k.pid k.process k.body k.code := by
  obtain ⟨r, r', runs, hq, inside⟩ := h.below
  have self_lt : ∀ x, some q = some x → x < r.nextPid := fun x hx => by cases hx; exact hq
  obtain ⟨children, conduct, blocks, -⟩ := runs.blocks self_lt
  exact ⟨children, _, _, conduct, blocks, blocks.placed self_lt inside⟩

end LineShell
