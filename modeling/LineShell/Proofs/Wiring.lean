import LineShell.Proofs.Wiring.Preparation
import LineShell.Proofs.Wiring.Prescription

namespace LineShell

/-!
# How programs are wired

Every program that gets to run finds its standard streams as its command prescribes them, and
nothing else open.

* `Table.standard_move_input`, `Table.standard_move_output` — rebinding one standard stream.
* `Forked` — what a fork makes of a run.
* `Command.runsWired` — the run of a process launches nothing but what its command prescribes.
* `programs_wired` — neither does a line.
-/

/-! ### Rebinding a standard stream -/

namespace Table

variable {input output s s' : Stream} {d e : Descriptor}

/-- No descriptor beyond the standard streams is open. -/
theorem standard_of_le (h : 3 ≤ d) : standard input output d = none := by
  have h₀ : d ≠ standardInput := by intro hd; rw [hd] at h; contradiction
  have h₁ : d ≠ standardOutput := by intro hd; rw [hd] at h; contradiction
  have h₂ : d ≠ standardError := by intro hd; rw [hd] at h; contradiction
  simp [standard, h₀, h₁, h₂]

/-- A stream moved to standard input. -/
theorem standard_move_input (h : 3 ≤ d) :
    move d standardInput (Function.update (standard input output) d (some s))
      = standard s output := by
  funext x
  unfold move
  split
  case isTrue hx => simp [standard, hx]
  case isFalse hx =>
    split
    case isTrue hd => rw [hd, standard_of_le h]
    case isFalse hd => simp [Function.update_of_ne hd, standard, hx]

/-- A stream moved to standard output. -/
theorem standard_move_output (h : 3 ≤ d) :
    move d standardOutput (Function.update (standard input output) d (some s))
      = standard input s := by
  funext x
  unfold move
  split
  case isTrue hx => simp [standard, hx, standardInput, standardOutput]
  case isFalse hx =>
    split
    case isTrue hd => rw [hd, standard_of_le h]
    case isFalse hd => simp [Function.update_of_ne hd, standard, hx]

/-- The table with both ends of a pipe open. -/
def withPipe (table : Table) (ends : PipeEnds) (pipe : Nat) : Table :=
  Function.update (Function.update table ends.read (some (.readEnd pipe))) ends.write
    (some (.writeEnd pipe))

variable {ends : PipeEnds} {k : Nat}

/-- A process that drops the end for reading and moves the other writes to the pipe. -/
theorem standard_attach_output (hread : 3 ≤ ends.read) (hwrite : ends.read < ends.write) :
    move ends.write standardOutput
        (Function.update ((standard input output).withPipe ends k) ends.read none)
      = standard input (.writeEnd k) := by
  have hne : ends.write ≠ ends.read := by lia
  -- closing the end for reading undoes that it was opened
  rw [withPipe, Function.update_comm hne, Function.update_idem, ← standard_of_le hread,
    Function.update_eq_self, standard_move_output (by lia)]

/-- A process that drops the end for writing and moves the other reads from the pipe. -/
theorem standard_attach_input (hread : 3 ≤ ends.read) (hwrite : ends.read < ends.write) :
    move ends.read standardInput
        (Function.update ((standard input output).withPipe ends k) ends.write none)
      = standard (.readEnd k) output := by
  have hne : ends.read ≠ ends.write := by lia
  have hclosed : standard input output ends.write = none := standard_of_le (by lia)
  rw [withPipe, Function.update_idem, Function.update_comm hne, ← hclosed,
    Function.update_eq_self, standard_move_input hread]

end Table

/-! ### Forks -/

/-- What a fork makes of a run of `root` with the tables `t`: the child runs with the tables
`inner`, and the process goes on with the tables `outer`. -/
structure Forked (root : Caller) (child : Process) (next : Pid → Process) (t : Tables)
    (es : List Event) (code : Int) (r' : Recorder) (pid : Pid) (body rest : List Event)
    (inner outer : Tables) : Prop where
  child_runs : ∃ r₁ c r₂, Runs (some pid) child r₁ body c r₂ ∧ r₁.Ready (some pid)
  rest_runs : ∃ r₂, Runs root (next pid) r₂ rest code r' ∧ r₂.Ready root
  inner_table : inner.table (some pid) = t.table root
  inner_pipes : inner.pipes = t.pipes
  outer_table : outer.table root = t.table root
  outer_pipes : outer.pipes = (inner.after body).pipes
  after : t.after es = outer.after rest
  launches : t.launches es = inner.launches body ++ outer.launches rest

variable {self : Caller} {r r' : Recorder} {es : List Event} {code : Int}

/-- A fork fails, or it makes of the run the run of the child and of what the process does then. -/
theorem Runs.forked {child : Process} {next : Except Errno Pid → Process}
    (h : Runs self (.fork child next) r es code r') (ready : r.Ready self) (t : Tables) :
    (∃ e r₁ event es', es = event :: es' ∧ event.argv? = none ∧
        Runs self (next (.error e)) r₁ es' code r') ∨
      ∃ pid body rest inner outer,
        Forked self child (fun pid => next (.ok pid)) t es code r' pid body rest inner outer := by
  cases h with
  | step first rest =>
    cases first with
    | forkFailed h => exact .inl ⟨_, _, _, _, rfl, rfl, rest⟩
  | @fork _ _ _ _ pid r₁ body c r₂ rest _ _ begun inner rest' =>
    obtain ⟨rfl, hnext, -, started⟩ := Recorder.beginFork_ok begun self
    -- the child starts with the tables behind the fork, the process goes on with those behind the
    -- end of the child
    have ended := r₂.endFork_follows r.nextPid c
    have hinner : r₁.Ready (some r.nextPid) :=
      { ready.follows started with root_lt := by rintro q ⟨⟩; lia }
    have houter : (r₂.endFork r.nextPid c).Ready self :=
      ((ready.follows started).follows inner.follows).follows ended
    refine .inr ⟨r.nextPid, body, rest, t.step (.started self r.nextPid),
      t.after (.started self r.nextPid :: (body ++ [.ended r.nextPid c])),
      ⟨r₁, c, r₂, inner, hinner⟩, ⟨_, rest', houter⟩, ?_, rfl,
      inner.child_frame begun ready.root_lt t, ?_, ?_, ?_⟩
    · exact Function.update_self _ _ _
    · rw [Tables.after_cons, Tables.after_append]
      rfl
    · simp
    · simp [Tables.launches, Tables.launches_append, Event.started, Event.ended, Event.argv?]

/-! ### Runs of commands -/

variable {aliases : AliasTable} {command : Command} {input output : Stream}

/-- A program is launched with its words on the table of its process, if it is launched at all. -/
theorem launch_wires {argv : List String} (h : Runs self (launch aliases argv) r es code r')
    {t : Tables} (table : t.table self = .standard input output) :
    Wires aliases (.exec argv) input output t es := by
  suffices hsub : (t.launches es).Sublist [Leaf.launch aliases ⟨argv, input, output⟩] from
    fun lo _ =>
      ⟨lo, [], [⟨argv, input, output⟩], .exec, List.nodup_nil, Nat.le_refl _, by simp, hsub⟩
  unfold launch at h
  split at h
  case h_1 hwords =>
    -- no words, no program
    rw [t.launches_eq_nil (h.launchless (fail_launchless _))]
    exact List.nil_sublist _
  case h_2 program arguments hwords =>
    cases h with
    | step first rest =>
      cases first with
      | note =>
        cases rest with
        | exec => simp [Tables.launches, Event.argv?, Leaf.launch_eq, hwords, table]
        | step first rest =>
          cases first with
          | execFailed =>
            have hfail := rest.launchless (fail_launchless _)
            simp [Tables.launches, Event.argv?, Leaf.launch_eq, hwords, table,
              Tables.launches_eq_nil _ hfail]

/-- A prepared run is wired when the run behind the preparation is. -/
theorem Prepared.wires {change : Table → Table} {next : Process}
    (h : Prepared self change next r es code r') (ready : r.Ready self) {t : Tables}
    (table : change (t.table self) = .standard input output)
    (inner : ∀ {r es}, Runs self next r es code r' → r.Ready self → ∀ t : Tables,
      t.table self = .standard input output → Wires aliases command input output t es) :
    Wires aliases command input output t es := by
  rcases h with silent | ⟨es₁, r₁, es₂, rfl, rebinds, hrun⟩
  · exact .of_silent _ _ _ _ (t.launches_eq_nil silent)
  · have htable := (rebinds.table t).trans table
    have hwires := inner hrun (ready.follows rebinds.follows) (t.after es₁) htable
    refine hwires.mono ?_ ?_ ?_
    · exact Nat.le_of_eq (rebinds.pipes t).symm
    · exact Nat.le_of_eq (congrArg Tables.pipes (t.after_append es₁ es₂).symm)
    · rw [Tables.launches_append, t.launches_eq_nil rebinds.silent, List.nil_append]

/-- A process that only starts a child and waits is wired as its child is. -/
theorem Runs.fork_wires {child : Process} {next : Except Errno Pid → Process}
    (h : Runs self (.fork child next) r es code r') (ready : r.Ready self) (t : Tables)
    (fails : ∀ e, (next (.error e)).Launchless) (goes : ∀ pid, (next (.ok pid)).Launchless)
    (inner : ∀ {q r es code r'}, Runs q child r es code r' → r.Ready q → ∀ t' : Tables,
      t'.table q = t.table self → Wires aliases command input output t' es) :
    Wires aliases command input output t es := by
  rcases h.forked ready t with ⟨e, r₁, event, es', rfl, silent, hrun⟩ | ⟨pid, body, rest, t₁, t₂, h⟩
  · exact .of_silent _ _ _ _ (hrun.launches_cons (fails e) silent t)
  · -- the launches are those of the child, the pipes may be more
    obtain ⟨r₁, c, r₂, hchild, hready⟩ := h.child_runs
    obtain ⟨r₃, hrest, -⟩ := h.rest_runs
    refine (inner hchild hready t₁ h.inner_table).mono (Nat.le_of_eq h.inner_pipes.symm) ?_ ?_
    · rw [h.after, ← h.outer_pipes]
      exact t₂.pipes_le_after rest
    · rw [h.launches, t₂.launches_eq_nil (hrest.launchless (goes pid)), List.append_nil]

/-- Every run of the process of a command, on three standard streams, launches no program but those
of the command, on the streams that the command prescribes. -/
def Command.RunsWired (aliases : AliasTable) (command : Command) : Prop :=
  ∀ {self r es code r' input output}, Runs self (command.process aliases) r es code r' →
    r.Ready self → ∀ t : Tables, t.table self = .standard input output →
      Wires aliases command input output t es

/-- A redirect binds one stream of its child to a file. -/
theorem Command.RunsWired.redirect {inner : Command} (h : inner.RunsWired aliases)
    (direction : Direction) (path : String) :
    (Command.redirect inner direction path).RunsWired aliases := by
  intro self r es code r' input output hrun ready t table
  cases direction with
  | input =>
    refine .redirect_input (hrun.fork_wires ready t (fun e => fail_launchless _)
      awaitRedirect_launchless fun hchild ready t' table' => ?_)
    refine (hchild.openOnto_prepared ready).wires ready ?_ h
    rw [Function.comp_apply, table', table]
    exact Table.standard_move_input ready.descriptor
  | output =>
    refine .redirect_output (hrun.fork_wires ready t (fun e => fail_launchless _)
      awaitRedirect_launchless fun hchild ready t' table' => ?_)
    refine (hchild.openOnto_prepared ready).wires ready ?_ h
    rw [Function.comp_apply, table', table]
    exact Table.standard_move_output ready.descriptor

/-- A pipe binds one stream of each of its children to its own ends. -/
theorem Command.RunsWired.pipe {left right : Command} (hl : left.RunsWired aliases)
    (hr : right.RunsWired aliases) : (Command.pipe left right).RunsWired aliases := by
  intro self r es code r' input output hrun ready t table
  cases hrun with
  | step first rest =>
    have follows := first.follows
    cases first with
    | pipe =>
      cases hmade : r.pipe.1 with
      | error e =>
        rw [hmade] at rest
        exact .of_silent _ _ _ _ (rest.launches_cons (fail_launchless _) rfl t)
      | ok ends =>
        obtain rfl := ready.pipe_ok hmade
        rw [hmade] at rest follows
        -- the numbers of the ends, and the table behind the call
        have hread : 3 ≤ r.nextEnds.read := ready.descriptor
        have hwrite : r.nextEnds.read < r.nextEnds.write := Int.lt_succ _
        let t₁ := t.step ⟨self, .pipe (.ok r.nextEnds), some (r.entry .pipe (.pipe r.nextEnds))⟩
        have table₁ :
            t₁.table self = (Table.standard input output).withPipe r.nextEnds t.pipes := by
          rw [← table]
          exact t.step_table_self (by simp)
        rcases rest.forked (ready.follows follows) t₁ with
          ⟨e, r₁, event, es', rfl, silent, hnext⟩ | ⟨pid, body, rest, t₂, t₃, forked⟩
        · -- the left side cannot be started
          have hfail := closeEnds_launchless r.nextEnds (fail_launchless (.call .fork e))
          exact .of_silent _ _ _ _ (hnext.launches_cons hfail silent t₁)
        · -- both children inherit both ends: the process closes them only when both are started
          obtain ⟨r₁, c, r₂, hchild, hready⟩ := forked.child_runs
          obtain ⟨r₃, hrest, hready'⟩ := forked.rest_runs
          have hleft : Wires aliases left input (.writeEnd t.pipes) t₂ body := by
            refine hchild.attach_prepared.wires hready ?_ hl
            rw [Function.comp_apply, forked.inner_table, table₁]
            exact Table.standard_attach_output hread hwrite
          have hright : Wires aliases right (.readEnd t.pipes) output t₃ rest := by
            refine hrest.fork_wires hready' t₃ (fun e => ?_) (fun right => ?_) ?_
            · exact closeEnds_launchless _ (abandonPipe_launchless pid e)
            · exact closeEnds_launchless _ (awaitPipe_launchless pid right)
            · intro q r es code r' hchild ready t' table'
              refine hchild.attach_prepared.wires ready ?_ hr
              rw [Function.comp_apply, table', forked.outer_table, table₁]
              exact Table.standard_attach_input hread hwrite
          refine .pipe hleft hright ?_ (Nat.le_of_eq forked.outer_pipes.symm) ?_ forked.launches
          · rw [forked.inner_pipes]
            exact Nat.lt_succ_self _
          · exact Nat.le_of_eq (congrArg Tables.pipes forked.after).symm

/-- **Wiring.** A process that realizes a command on three standard streams launches no program but
those of the command, on the streams that the command prescribes. -/
theorem Command.runsWired (aliases : AliasTable) (command : Command) :
    command.RunsWired aliases := by
  induction command with
  | exec argv => exact fun hrun _ _ table => launch_wires hrun table
  | pipe left right ihl ihr => exact ihl.pipe ihr
  | redirect inner direction path ih => exact ih.redirect direction path

/-! ### Lines -/

/-- The shell does not touch its own descriptors. -/
theorem Process.ofLine_steady (session : Session) (command : Command) :
    (Process.ofLine session command).Steady := by
  unfold Process.ofLine
  split
  · trivial
  · rintro (e | pid)
    · trivial
    · rintro (e | status) <;> trivial

/-- No lines change what the shell itself has open. -/
theorem traceLines_table {lines : List (Session × Command)} {s : RehearsalStage} (t : Tables) :
    (t.after (traceLines lines s)).table none = t.table none := by
  induction lines generalizing s t with
  | nil => rfl
  | cons line lines ih =>
    rw [traceLines, Tables.after_append, ih]
    exact (runs_trace _ none _).steady (Process.ofLine_steady line.1 line.2) (by simp) t

/-- A line of the shell launches no program but those of its command, on the streams that the
command prescribes. -/
theorem traceLine_wires {session : Session} {command : Command} {s : RehearsalStage}
    (ready : s.recorder.Ready none) {t : Tables}
    (table : t.table none = .standard .shellInput .shellOutput) :
    Wires session.aliases command .shellInput .shellOutput t (traceLine session command s) := by
  obtain ⟨code, r', hrun⟩ : ∃ code r', Runs none (Process.ofLine session command) s.recorder
      (traceLine session command s) code r' := ⟨_, _, runs_trace _ none _⟩
  generalize traceLine session command s = es at hrun ⊢
  unfold Process.ofLine at hrun
  split at hrun
  case isTrue hempty => exact .of_silent _ _ _ _ (t.launches_eq_nil (hrun.launchless trivial))
  case isFalse hempty =>
    cases hrun with
    | @step _ _ _ _ _ _ es' _ _ first rest =>
      have follows := first.follows
      cases first with
      | note =>
        -- behind its first note the shell forks, and its child realizes the command
        have hwires : Wires session.aliases command .shellInput .shellOutput t es' := by
          refine rest.fork_wires (ready.follows follows) t (fun e => trivial) (fun pid => ?_) ?_
          · rintro (e | status) <;> trivial
          · exact fun hchild ready t' table' =>
              command.runsWired session.aliases hchild ready t' (table'.trans table)
        exact hwires.mono (Nat.le_refl _) (by simp) (by simp [Tables.launches, Event.argv?])

/-- **Programs are wired as their command prescribes.** Commands are executed one after the other
on a new recorder, in any world that lets the recorder hand out its own descriptors; `line` is the
trace of the last execution, `past` that of the others.  The two make up the record.  Every attempt
of `line` to run a program is one of a program of the command, made with the words that the aliases
make of its own and by a process whose open descriptors are the three standard streams, as the
command prescribes them, and nothing else; the pipes of the command are different new ones, and
each program is tried at most once and from the left. -/
theorem programs_wired (world : World) (opens : world.openDescriptors = [])
    (ends : world.pipeDescriptors = []) (tree : FileTree) (earlier : List (Session × Command))
    (session : Session) (command : Command) :
    let start : RehearsalStage := ⟨{ world := world }, tree⟩
    let s := executeAll earlier start
    let past := traceLines earlier start
    let line := traceLine session command s
    let t := Tables.shell.after past
    (execute session command s).2.recorder.calls = (past ++ line).filterMap (·.entry) ∧
      ∃ pipes leaves, Wired command .shellInput .shellOutput pipes leaves ∧ pipes.Nodup ∧
        (∀ k ∈ pipes, t.pipes ≤ k) ∧
        (t.launches line).Sublist (leaves.map (Leaf.launch session.aliases)) := by
  intro start s past line t
  have hstart : start.recorder.Ready none := ⟨opens, ends, show (3 : Int) ≤ 10 by decide, by simp⟩
  have hready : s.recorder.Ready none := hstart.follows (executeAll_follows earlier start)
  have htable : t.table none = .standard .shellInput .shellOutput := traceLines_table _
  constructor
  · rw [(execute_follows session command s).calls, (executeAll_follows earlier start).calls,
      List.filterMap_append]
    rfl
  · have hwires : Wires session.aliases command .shellInput .shellOutput t line :=
      traceLine_wires hready htable
    obtain ⟨hi, pipes, leaves, wired, nodup, -, hpipes, hsub⟩ := hwires _ (Nat.le_refl _)
    exact ⟨pipes, leaves, wired, nodup, fun k hk => (hpipes k hk).1, hsub⟩

/-- A redirect over a pipe, on the left of a pipe, where the second program cannot be run. -/
theorem programs_wired_nested :
    let world : World := { faults := [⟨.exec, 1, .eacces⟩] }
    let start : RehearsalStage := ⟨{ world := world }, .empty⟩
    let session : Session := ⟨"/", .defaults⟩
    let command : Command :=
      .pipe (.redirect (.pipe (.exec ["ll"]) (.exec ["b"])) .output "f") (.exec ["c"])
    let line := traceLine session command start
    world.openDescriptors = [] ∧ world.pipeDescriptors = [] ∧
      (Tables.shell.launches line).map (·.2) = [["ls", "-l"], ["b"], ["c"]] ∧
      ∃ pipes leaves, Wired command .shellInput .shellOutput pipes leaves ∧ pipes.Nodup ∧
        (Tables.shell.launches line).Sublist (leaves.map (Leaf.launch session.aliases)) := by
  intro world start session command line
  obtain ⟨-, pipes, leaves, wired, nodup, -, hsub⟩ :=
    programs_wired world rfl rfl .empty [] session command
  exact ⟨rfl, rfl, by decide +kernel, pipes, leaves, wired, nodup, hsub⟩

end LineShell
