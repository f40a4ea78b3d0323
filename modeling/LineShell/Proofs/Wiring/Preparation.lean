import LineShell.Proofs.Wiring.Table

namespace LineShell

/-!
# How a child prepares its streams

Between its start and the program that takes its place a child makes a few calls of its own.
Either one of them fails, and then it runs no program, or all succeed, and then its table is what
the calls make of the table that it inherited.

* `Process.Launchless` — a process that never tries to run a program.
* `Recorder.Ready` — a recorder that hands out fresh descriptors to a process.
* `Prepared` — a run that either launches nothing or goes on with a changed table.
* `Runs.attach_prepared`, `Runs.openOnto_prepared` — the two preparations of the executor.
-/

/-! ### Processes that run no program -/

/-- The process does not try to run a program, and neither does one that descends from it. -/
def Process.Launchless : Process → Prop
  | .exit _ => True
  | .fork child next => child.Launchless ∧ ∀ result, (next result).Launchless
  | .pipe next => ∀ result, (next result).Launchless
  | .dup2 _ _ next => ∀ result, (next result).Launchless
  | .close _ next => ∀ result, (next result).Launchless
  | .openFile _ _ next => ∀ result, (next result).Launchless
  | .exec _ _ => False
  | .wait _ next => ∀ result, (next result).Launchless
  | .note _ next => next.Launchless
  | .report _ next => next.Launchless

variable {next : Process}

/-- A process that fails launches nothing. -/
theorem fail_launchless (failure : Failure) : (Process.fail failure).Launchless := trivial

/-- Closing the ends of a pipe launches nothing. -/
theorem closeEnds_launchless (ends : PipeEnds) (h : next.Launchless) :
    (closeEnds ends next).Launchless := by
  rintro (e | _) <;> rintro (e | _) <;> exact h

theorem noteEnd_launchless (status : ChildStatus) (h : next.Launchless) :
    (noteEnd status next).Launchless := by
  unfold noteEnd
  split
  · exact h
  · exact h

theorem abandonPipe_launchless (left : Pid) (errno : Errno) :
    (abandonPipe left errno).Launchless := by
  rintro (e | status)
  · exact fail_launchless _
  · exact noteEnd_launchless status (fail_launchless _)

/-- Waiting for the sides of a pipe launches nothing. -/
theorem awaitPipe_launchless (left right : Pid) : (awaitPipe left right).Launchless := by
  rintro (e | leftStatus) (e' | rightStatus)
  · exact fail_launchless _
  · exact fail_launchless _
  · exact fail_launchless _
  · exact noteEnd_launchless leftStatus (noteEnd_launchless rightStatus trivial)

theorem awaitRedirect_launchless (pid : Pid) : (awaitRedirect pid).Launchless := by
  rintro (e | status)
  · exact fail_launchless _
  · exact noteEnd_launchless status trivial

section Runs

variable {self : Caller} {p p' : Process} {r r' : Recorder} {es : List Event} {code : Int}

/-- A call of a process that runs no program is no attempt to run one, and what follows runs none
either. -/
theorem Step.launchless (h : Step self p r es p' r') (hp : p.Launchless) :
    (∀ e ∈ es, e.argv? = none) ∧ p'.Launchless := by
  cases h with
  | forkFailed => exact ⟨by simp [Event.argv?], hp.2 _⟩
  | execFailed => exact hp.elim
  | note => exact ⟨by simp [Event.argv?], hp⟩
  | report => exact ⟨by simp, hp⟩
  | pipe | dup2 | close | openFile | wait => exact ⟨by simp [Event.argv?], hp _⟩

/-- A process that runs no program leaves no attempt to run one in its trace. -/
theorem Runs.launchless (h : Runs self p r es code r') (hp : p.Launchless) :
    ∀ e ∈ es, e.argv? = none := by
  induction h with
  | exit => simp
  | exec => exact hp.elim
  | step first _ ih =>
    intro e he
    rcases List.mem_append.1 he with he | he
    · exact (first.launchless hp).1 e he
    · exact ih (first.launchless hp).2 e he
  | fork _ _ _ ihi ihr =>
    intro e he
    rcases mem_child.1 he with rfl | he | rfl | he
    · rfl
    · exact ihi hp.1 e he
    · rfl
    · exact ihr (hp.2 _) e he

/-- An event that is no attempt to run a program, before a process that makes none. -/
theorem Runs.launches_cons (h : Runs self p r es code r') (hp : p.Launchless) {event : Event}
    (silent : event.argv? = none) (t : Tables) : t.launches (event :: es) = [] := by
  apply t.launches_eq_nil
  intro e he
  rcases List.mem_cons.1 he with rfl | he
  · exact silent
  · exact h.launchless hp e he

end Runs

/-! ### Fresh descriptors -/

/-- A recorder that hands out its own descriptors, none of which is a standard stream, and on which
the numbers of new processes differ from that of the process itself. -/
structure Recorder.Ready (root : Caller) (r : Recorder) : Prop where
  openDescriptors : r.world.openDescriptors = []
  pipeDescriptors : r.world.pipeDescriptors = []
  descriptor : 3 ≤ r.nextDescriptor
  root_lt : ∀ pid, root = some pid → pid < r.nextPid

namespace Recorder

/-- A recorder stays ready along a trace. -/
theorem Ready.follows {root : Caller} {r r' : Recorder} {es : List Event} (ready : r.Ready root)
    (h : r.Follows es r') : r'.Ready root where
  openDescriptors := by rw [h.world, ready.openDescriptors]
  pipeDescriptors := by rw [h.world, ready.pipeDescriptors]
  descriptor := Int.le_trans ready.descriptor h.nextDescriptor
  root_lt pid hpid := Int.lt_of_lt_of_le (ready.root_lt pid hpid) h.nextPid

/-- The ends of a new pipe are the next two descriptors. -/
theorem Ready.pipe_ok {root : Caller} {r : Recorder} (ready : r.Ready root) {ends : PipeEnds}
    (h : r.pipe.1 = .ok ends) : ends = r.nextEnds := by
  unfold pipe at h
  rcases r.attempt_eq .pipe (.pipe r.nextEnds) with ⟨e, r', hr, -⟩ | ⟨r', hr, -, -, hw, -, hd⟩
  · rw [hr] at h
    cases h
  · rw [hr] at h
    simp only [hw, ready.pipeDescriptors, List.lookup_nil, Option.getD_none, hd] at h
    exact (Except.ok.inj h).symm

/-- The descriptor of an opened file is the next one. -/
theorem Ready.openFile_ok {root : Caller} {r : Recorder} (ready : r.Ready root) {path : String}
    {direction : Direction} {descriptor : Descriptor}
    (h : (r.openFile path direction).1 = .ok descriptor) : descriptor = r.nextDescriptor := by
  unfold openFile at h
  rcases r.attempt_eq .openFile (.openFile path direction) with
    ⟨e, r', hr, -⟩ | ⟨r', hr, -, -, hw, -, hd⟩
  · rw [hr] at h
    cases h
  · rw [hr] at h
    dsimp only at h
    split at h
    · cases h
    · simp only [record, hw, ready.openDescriptors, List.lookup_nil, Option.getD_none, hd] at h
      exact (Except.ok.inj h).symm

end Recorder

/-! ### Preparations -/

/-- The events between two recorders launch nothing and make no pipe, and change the table of the
process that makes them. -/
structure Rebinds (root : Caller) (change : Table → Table) (r : Recorder) (es : List Event)
    (r' : Recorder) : Prop where
  follows : r.Follows es r'
  silent : ∀ e ∈ es, e.argv? = none
  pipes : ∀ t : Tables, (t.after es).pipes = t.pipes
  table : ∀ t : Tables, (t.after es).table root = change (t.table root)

/-- The run launches nothing, or it goes on as a run of `next` after its table was changed. -/
def Prepared (self : Caller) (change : Table → Table) (next : Process) (r : Recorder)
    (es : List Event) (code : Int) (r' : Recorder) : Prop :=
  (∀ e ∈ es, e.argv? = none) ∨
    ∃ es₁ r₁ es₂, es = es₁ ++ es₂ ∧ Rebinds self change r es₁ r₁ ∧ Runs self next r₁ es₂ code r'

variable {self : Caller} {r r' : Recorder} {es : List Event} {code : Int}

/-- Tables are rebound by one trace after the other. -/
theorem Rebinds.append {f g : Table → Table} {r₁ : Recorder} {es' : List Event}
    (h : Rebinds self f r es r₁) (h' : Rebinds self g r₁ es' r') :
    Rebinds self (g ∘ f) r (es ++ es') r' where
  follows := h.follows.append h'.follows
  silent e he := (List.mem_append.1 he).elim (h.silent e) (h'.silent e)
  pipes t := by rw [Tables.after_append, h'.pipes, h.pipes]
  table t := by rw [Tables.after_append, h'.table, h.table, Function.comp_apply]

namespace Prepared

/-- A process that needs no preparation is prepared. -/
theorem of_runs (h : Runs self next r es code r') : Prepared self id next r es code r' :=
  .inr ⟨[], r, es, rfl, ⟨.refl r, by simp, fun _ => rfl, fun _ => rfl⟩, h⟩

/-- Preparations put one behind the other. -/
theorem trans {f g : Table → Table} {next' : Process} (h : Prepared self f next r es code r')
    (h' : ∀ {r es}, Runs self next r es code r' → Prepared self g next' r es code r') :
    Prepared self (g ∘ f) next' r es code r' := by
  rcases h with silent | ⟨es₁, r₁, es₂, rfl, rebinds, hrun⟩
  · exact .inl silent
  · -- the second preparation runs behind the first, which launched nothing
    rcases h' hrun with silent | ⟨es₃, r₂, es₄, rfl, rebinds', hrun'⟩
    · exact .inl fun e he => (List.mem_append.1 he).elim (rebinds.silent e) (silent e)
    · exact .inr ⟨es₁ ++ es₃, r₂, es₄, (List.append_assoc _ _ _).symm, rebinds.append rebinds',
        hrun'⟩

end Prepared

/-- A call of the process itself that starts no process and no program and makes no pipe. -/
theorem Recorder.Follows.rebinds {e : Event} (h : r.Follows [e] r') (argv : e.argv? = none)
    (fork : ∀ pid, e.action ≠ .fork (.ok pid)) (pipe : ∀ ends, e.action ≠ .pipe (.ok ends)) :
    Rebinds e.caller (fun table => table.step 0 e.action) r [e] r' where
  follows := h
  silent := by simpa using argv
  pipes t := t.step_pipes_of_ne pipe
  table t := by
    show (t.step e).table e.caller = _
    rw [t.step_table_self fork, Table.step_of_ne_pipe pipe t.pipes 0]

/-- A call that launches nothing when it fails, and that gives back what is expected otherwise. -/
theorem Prepared.of_call {α : Type} (action : Except Errno α → Action) {result : Except Errno α}
    {entry : Option Call} {next : Except Errno α → Process} {r₁ : Recorder} (expected : α)
    (first : r.Follows [⟨self, action result, entry⟩] r₁)
    (rest : Runs self (next result) r₁ es code r')
    (argv : ∀ result, (Event.mk self (action result) entry).argv? = none)
    (fork : ∀ result pid, action result ≠ .fork (.ok pid))
    (pipe : ∀ result ends, action result ≠ .pipe (.ok ends))
    (fails : ∀ e, (next (.error e)).Launchless) (ok : ∀ x, result = .ok x → x = expected) :
    Prepared self (fun table => table.step 0 (action (.ok expected))) (next (.ok expected)) r
      (⟨self, action result, entry⟩ :: es) code r' := by
  rcases result with e | x
  · -- the call and all that follows its failure
    refine .inl fun x hx => ?_
    rcases List.mem_cons.1 hx with rfl | hx
    · exact argv _
    · exact rest.launchless (fails e) x hx
  · obtain rfl := ok x rfl
    exact .inr ⟨_, _, _, rfl, first.rebinds (argv _) (fork _) (pipe _), rest⟩

/-- The table after a descriptor was moved to the place of another. -/
def Table.move (source target : Descriptor) (table : Table) : Table := fun d =>
  if d = target then table source else if d = source then none else table d

/-- Moving a descriptor is `dup2` and `close`. -/
theorem Table.move_of_ne {source target : Descriptor} (h : source ≠ target) (table : Table) :
    table.move source target
      = Function.update (Function.update table target (table source)) source none := by
  funext d
  by_cases hs : d = source
  · -- the source is closed last
    subst hs
    rw [Function.update_self]
    simp [move, h]
  · rw [Function.update_of_ne hs]
    by_cases ht : d = target
    · subst ht
      simp [move]
    · simp [move, hs, ht]

/-- Moving a descriptor to its own place changes nothing. -/
theorem Table.move_self (descriptor : Descriptor) (table : Table) :
    table.move descriptor descriptor = table := by
  funext d
  by_cases h : d = descriptor
  · subst h
    simp [move]
  · simp [move, h]

namespace Runs

/-! ### Calls as preparations -/

variable {descriptor source target : Descriptor} {path : String} {direction : Direction}

/-- A closed descriptor is gone from the table, or nothing is launched any more. -/
theorem close_prepared {next : Except Errno Unit → Process}
    (h : Runs self (.close descriptor next) r es code r')
    (fails : ∀ e, (next (.error e)).Launchless) :
    Prepared self (fun table => Function.update table descriptor none) (next (.ok ())) r es code
      r' := by
  cases h with
  | step first rest =>
    have follows := first.follows
    cases first with
    | close =>
      exact .of_call (.close descriptor) () follows rest (fun _ => rfl) (by simp) (by simp) fails
        fun _ _ => rfl

/-- A descriptor that is moved refers to what its source refers to, or nothing is launched. -/
theorem dup2_prepared {next : Except Errno Unit → Process}
    (h : Runs self (.dup2 source target next) r es code r')
    (fails : ∀ e, (next (.error e)).Launchless) :
    Prepared self (fun table => Function.update table target (table source)) (next (.ok ())) r es
      code r' := by
  cases h with
  | step first rest =>
    have follows := first.follows
    cases first with
    | dup2 =>
      exact .of_call (.dup2 source target) () follows rest (fun _ => rfl) (by simp) (by simp) fails
        fun _ _ => rfl

/-- The next descriptor refers to the file that was opened, or nothing is launched. -/
theorem openFile_prepared {next : Except Errno Descriptor → Process}
    (h : Runs self (.openFile path direction next) r es code r') (ready : r.Ready self)
    (fails : ∀ e, (next (.error e)).Launchless) :
    Prepared self
      (fun table => Function.update table r.nextDescriptor (some (.file path direction)))
      (next (.ok r.nextDescriptor)) r es code r' := by
  cases h with
  | step first rest =>
    have follows := first.follows
    cases first with
    | openFile =>
      exact .of_call (.openFile path direction) r.nextDescriptor follows rest (fun _ => rfl)
        (by simp) (by simp) fails fun _ => ready.openFile_ok

/-! ### The preparations of the executor -/

/-- Both calls of a move together rebind the target and free the source. -/
theorem moveTo_prepared (h : Runs self (moveTo source target next) r es code r') :
    Prepared self (Table.move source target) next r es code r' := by
  unfold moveTo at h
  split at h
  case isTrue heq =>
    subst heq
    rw [show Table.move source source = id from funext (Table.move_self source)]
    exact .of_runs h
  case isFalse hne =>
    -- `dup2` and then `close`, which together are the move
    have hdup := h.dup2_prepared fun e => fail_launchless _
    have hclose := hdup.trans fun h => h.close_prepared fun e => fail_launchless _
    rw [show Table.move source target = _ from funext (Table.move_of_ne hne)]
    exact hclose

/-- A child of a pipe drops one end and moves the other to a standard stream. -/
theorem attach_prepared {unused used : Descriptor}
    (h : Runs self (attach unused used target next) r es code r') :
    Prepared self (Table.move used target ∘ fun table => Function.update table unused none) next r es
      code r' :=
  (h.close_prepared fun _ => fail_launchless _).trans fun h => h.moveTo_prepared

/-- The child of a redirect moves the descriptor of its file to a standard stream. -/
theorem openOnto_prepared (h : Runs self (openOnto path direction next) r es code r')
    (ready : r.Ready self) :
    Prepared self
      (Table.move r.nextDescriptor direction.stream ∘ fun table =>
        Function.update table r.nextDescriptor (some (.file path direction)))
      next r es code r' :=
  (h.openFile_prepared ready fun _ => fail_launchless _).trans fun h => h.moveTo_prepared

end Runs

end LineShell
