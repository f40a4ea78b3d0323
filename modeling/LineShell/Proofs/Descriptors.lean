import LineShell.Proofs.Descriptors.Discipline
import LineShell.Proofs.Ending
import LineShell.Proofs.Wiring

namespace LineShell

/-!
# Descriptor hygiene

No process uses or closes a descriptor that it has not open, each pipe is closed by the process that
made it, and a process that waits keeps no descriptor but its standard streams.

* `Action.Sound` — a call that fits the table of its caller.
* `Holds` — the table of a process that holds some descriptors besides its standard streams.
* `Step.holds`, `Runs.sound` — what one call keeps of that, and what it says of a run.
* `descriptors_kept` — the hygiene of every line.
-/

/-! ### Calls that fit a table -/

/-- The descriptors that a call takes to be open. -/
def Action.uses : Action → List Descriptor
  | .dup2 source _ _ => [source]
  | .close descriptor _ => [descriptor]
  | _ => []

/-- The descriptors that a call has made. -/
def Action.makes : Action → List Descriptor
  | .pipe (.ok ends) => [ends.read, ends.write]
  | .openFile _ _ (.ok descriptor) => [descriptor]
  | _ => []

/-- The call fails to close a descriptor. -/
def Action.FailsToClose (a : Action) : Prop :=
  ∃ descriptor e, a = .close descriptor (.error e)

/-- A call that fits the table of its caller: what it uses is open, what it makes was not, and, if
all descriptors that were closed are closed indeed, only the standard streams are open at a wait. -/
structure Action.Sound (clean : Prop) (table : Table) (a : Action) : Prop where
  uses : ∀ d ∈ a.uses, (table d).isSome
  makes : a.makes.Nodup ∧ ∀ d ∈ a.makes, table d = none
  waits : clean → ∀ pid result, a = .wait pid result →
    ∃ input output, table = Table.standard input output

/-- A call that uses and makes no descriptor and does not wait fits every table. -/
theorem Action.sound_of_quiet {clean : Prop} {table : Table} {a : Action} (uses : a.uses = [])
    (makes : a.makes = []) (wait : ∀ pid result, a ≠ .wait pid result) : a.Sound clean table where
  uses := by simp [uses]
  makes := by simp [makes]
  waits _ pid result heq := absurd heq (wait pid result)

namespace Tables

/-- Every call of a trace is in a relation to the table of its caller at that time. -/
def Throughout (related : Table → Action → Prop) (t : Tables) : List Event → Prop
  | [] => True
  | e :: es => related (t.table e.caller) e.action ∧ (t.step e).Throughout related es

variable {related : Table → Action → Prop} {t : Tables} {es es' : List Event}

/-- What holds throughout two traces holds throughout the two of them joined. -/
theorem Throughout.append (h : t.Throughout related es)
    (h' : (t.after es).Throughout related es') : t.Throughout related (es ++ es') := by
  induction es generalizing t with
  | nil => exact h'
  | cons e es ih => exact ⟨h.1, ih h.2 h'⟩

/-- What holds throughout a trace holds at each of its events, with the tables of that moment. -/
theorem Throughout.at {before after : List Event} {e : Event} (h : t.Throughout related es)
    (split : es = before ++ e :: after) : related ((t.after before).table e.caller) e.action := by
  subst split
  induction before generalizing t with
  | nil => exact h.1
  | cons x before ih => exact ih h.2

/-- What a call of a process that starts no child does to the table of that process. -/
theorem after_own (t : Tables) (self : Caller) {a : Action} (entry : Option Call)
    (fork : ∀ pid, a ≠ .fork (.ok pid)) :
    (t.after [⟨self, a, entry⟩]).table self = (t.table self).step t.pipes a :=
  t.step_table_self fork

end Tables

/-! ### What a process holds -/

/-- The table of a process that holds the descriptors `held` besides its standard streams, where the
descriptors from `next` on were never made; if all descriptors that were closed are closed indeed,
nothing else is open. -/
structure Holds (clean : Prop) (table : Table) (next : Descriptor) (held : List Descriptor) :
    Prop where
  nodup : held.Nodup
  beyond : ∀ d ∈ held, 3 ≤ d
  are_open : ∀ d ∈ held, (table d).isSome
  below : ∀ d, (table d).isSome → d < next
  rest : clean → ∃ input output, ∀ d, d ∉ held → table d = Table.standard input output d

namespace Holds

variable {clean : Prop} {table : Table} {next : Descriptor} {held : List Descriptor}

/-- A table holds the same descriptors when later ones are handed out next. -/
theorem mono {next' : Descriptor} (h : Holds clean table next held) (le : next ≤ next') :
    Holds clean table next' held :=
  { h with below := fun d hd => Int.lt_of_lt_of_le (h.below d hd) le }

/-- The order in which descriptors are held does not matter. -/
theorem perm {held' : List Descriptor} (h : Holds clean table next held)
    (perm : held.Perm held') : Holds clean table next held' where
  nodup := perm.nodup_iff.1 h.nodup
  beyond d hd := h.beyond d (perm.mem_iff.2 hd)
  are_open d hd := h.are_open d (perm.mem_iff.2 hd)
  below := h.below
  rest hclean := by
    obtain ⟨input, output, standard⟩ := h.rest hclean
    exact ⟨input, output, fun d hd => standard d fun hmem => hd (perm.mem_iff.1 hmem)⟩

/-- A descriptor that was never made is not open. -/
theorem fresh (h : Holds clean table next held) {d : Descriptor} (le : next ≤ d) :
    table d = none := by
  cases hd : table d with
  | none => rfl
  | some stream =>
    have := h.below d (by simp [hd])
    lia

/-- The next descriptor is made. -/
theorem add (h : Holds clean table next held) (beyond : 3 ≤ next) (stream : Stream) :
    Holds clean (Function.update table next (some stream)) (next + 1) (next :: held) := by
  -- what is held is open, and nothing from `next` on is
  have hne : ∀ d ∈ held, d ≠ next := fun d hd heq => by
    have := h.below d (h.are_open d hd)
    lia
  refine ⟨List.nodup_cons.2 ⟨fun hmem => hne next hmem rfl, h.nodup⟩,
    List.forall_mem_cons.2 ⟨beyond, h.beyond⟩, ?_, fun d hd => ?_, fun hclean => ?_⟩
  · refine List.forall_mem_cons.2 ⟨by simp, fun d hd => ?_⟩
    rw [Function.update_of_ne (hne d hd)]
    exact h.are_open d hd
  · by_cases heq : d = next
    · lia
    · rw [Function.update_of_ne heq] at hd
      have := h.below d hd
      lia
  · obtain ⟨input, output, standard⟩ := h.rest hclean
    refine ⟨input, output, fun d hd => ?_⟩
    obtain ⟨hd, hheld⟩ : d ≠ next ∧ d ∉ held := by simpa using hd
    rw [Function.update_of_ne hd]
    exact standard d hheld

/-- A descriptor is moved to standard input or output. -/
theorem move (h : Holds clean table next held) {source target : Descriptor} (mem : source ∈ held)
    (standard : target = standardInput ∨ target = standardOutput) :
    Holds clean (Function.update table target (table source)) next held := by
  have hopen := h.are_open source mem
  have hsource := h.beyond source mem
  have hnext := h.below source hopen
  have htarget : target < 3 := by rcases standard with rfl | rfl <;> decide
  refine ⟨h.nodup, h.beyond, fun d hd => ?_, fun d hd => ?_, fun hclean => ?_⟩
  · have := h.beyond d hd
    rw [Function.update_of_ne (show d ≠ target by lia)]
    exact h.are_open d hd
  · by_cases heq : d = target
    · lia
    · rw [Function.update_of_ne heq] at hd
      exact h.below d hd
  · obtain ⟨input, output, hrest⟩ := h.rest hclean
    obtain ⟨stream, hstream⟩ := Option.isSome_iff_exists.1 hopen
    rw [hstream]
    -- the stream takes the place of standard input or of standard output
    rcases standard with rfl | rfl
    · refine ⟨stream, output, fun d hd => ?_⟩
      by_cases heq : d = standardInput
      · rw [heq, Function.update_self]
        rfl
      · rw [Function.update_of_ne heq, hrest d hd]
        simp [Table.standard, heq]
    · refine ⟨input, stream, fun d hd => ?_⟩
      by_cases heq : d = standardOutput
      · rw [heq, Function.update_self]
        rfl
      · rw [Function.update_of_ne heq, hrest d hd]
        simp [Table.standard, heq]

/-- A descriptor is closed. -/
theorem drop (h : Holds clean table next held) {d : Descriptor} (mem : d ∈ held) :
    Holds clean (Function.update table d none) next (held.erase d) := by
  refine ⟨h.nodup.erase d, fun x hx => h.beyond x (List.mem_of_mem_erase hx), fun x hx => ?_,
    fun x hx => ?_, fun hclean => ?_⟩
  · obtain ⟨hne, hx⟩ := h.nodup.mem_erase_iff.1 hx
    rw [Function.update_of_ne hne]
    exact h.are_open x hx
  · by_cases heq : x = d
    · simp [heq] at hx
    · rw [Function.update_of_ne heq] at hx
      exact h.below x hx
  · obtain ⟨input, output, standard⟩ := h.rest hclean
    refine ⟨input, output, fun x hx => ?_⟩
    -- the descriptor itself is beyond the standard streams
    by_cases heq : x = d
    · rw [heq, Function.update_self, Table.standard_of_le (h.beyond d mem)]
    · rw [Function.update_of_ne heq]
      exact standard x fun hmem => hx (h.nodup.mem_erase_iff.2 ⟨heq, hmem⟩)

/-- A descriptor that cannot be closed is given up. -/
theorem lose (h : Holds clean table next held) (d : Descriptor) (unclean : ¬ clean) :
    Holds clean table next (held.erase d) where
  nodup := h.nodup.erase d
  beyond x hx := h.beyond x (List.mem_of_mem_erase hx)
  are_open x hx := h.are_open x (List.mem_of_mem_erase hx)
  below := h.below
  rest hclean := absurd hclean unclean

/-- A process that holds nothing has its standard streams only. -/
theorem standard (h : Holds clean table next []) (hclean : clean) :
    ∃ input output, table = Table.standard input output := by
  obtain ⟨input, output, standard⟩ := h.rest hclean
  exact ⟨input, output, funext fun d => standard d (by simp)⟩

/-- A table of standard streams holds nothing besides. -/
theorem of_standard {input output : Stream} (htable : table = Table.standard input output)
    (beyond : 3 ≤ next) : Holds clean table next [] where
  nodup := List.nodup_nil
  beyond := by simp
  are_open := by simp
  below d hd := by
    by_contra hle
    rw [htable, Table.standard_of_le (show 3 ≤ d by lia)] at hd
    cases hd
  rest _ := ⟨input, output, fun d _ => congrFun htable d⟩

end Holds

/-! ### Runs -/

/-- A pipe takes two descriptors, so the next one lies behind both. -/
theorem Recorder.nextDescriptor_pipe {r : Recorder} {ends : PipeEnds} (h : r.pipe.1 = .ok ends) :
    r.pipe.2.nextDescriptor = r.nextDescriptor + 2 := by
  unfold pipe at h ⊢
  rcases r.attempt_eq .pipe (.pipe r.nextEnds) with ⟨e, r', hr, -⟩ | ⟨r', hr, -, -, -, -, hd⟩
  · rw [hr] at h
    cases h
  · rw [hr]
    exact congrArg (· + 2) hd

/-- An opened file takes one descriptor. -/
theorem Recorder.nextDescriptor_openFile {r : Recorder} {path : String} {direction : Direction}
    {descriptor : Descriptor} (h : (r.openFile path direction).1 = .ok descriptor) :
    (r.openFile path direction).2.nextDescriptor = r.nextDescriptor + 1 := by
  unfold openFile at h ⊢
  rcases r.attempt_eq .openFile (.openFile path direction) with
    ⟨e, r', hr, -⟩ | ⟨r', hr, -, -, -, -, hd⟩
  · rw [hr] at h
    cases h
  · rw [hr] at h ⊢
    dsimp only at h ⊢
    split at h
    · cases h
    case isFalse hfound =>
      rw [if_neg hfound]
      exact congrArg (· + 1) hd

variable {clean : Prop} {self : Caller} {p p' : Process} {r r' : Recorder} {es : List Event}
  {code : Int} {held : List Descriptor} {t : Tables}

/-- **One call.** A call of a process that accounts for its descriptors fits its table, and behind
it the process goes on to account for what it holds then. -/
theorem Step.holds (h : Step self p r es p' r') (keeps : p.Keeps held) (ready : r.Ready self)
    (holds : Holds clean (t.table self) r.nextDescriptor held)
    (closes : clean → ∀ e ∈ es, ¬ e.action.FailsToClose) :
    t.Throughout (Action.Sound clean) es ∧ ∃ held', p'.Keeps held' ∧
      Holds clean ((t.after es).table self) r'.nextDescriptor held' := by
  have grown : r.nextDescriptor ≤ r'.nextDescriptor := h.follows.nextDescriptor
  cases h with
  | forkFailed =>
    refine ⟨⟨Action.sound_of_quiet rfl rfl (by simp), trivial⟩, held, keeps.2 _, ?_⟩
    rw [t.after_own self _ (by simp)]
    exact holds.mono grown
  | pipe =>
    obtain ⟨rfl, failed, made⟩ := keeps
    refine ⟨⟨⟨by simp [Action.uses], ?_, by simp⟩, trivial⟩, ?_⟩
    · cases hmade : r.pipe.1 with
      | error e => simp [Action.makes]
      | ok ends =>
        obtain rfl := ready.pipe_ok hmade
        have hlt : r.nextEnds.read < r.nextEnds.write := Int.lt_succ _
        refine ⟨List.nodup_cons.2 ⟨by simpa using Int.ne_of_lt hlt, by simp⟩, ?_⟩
        refine List.forall_mem_cons.2 ⟨holds.fresh (Int.le_refl _), List.forall_mem_singleton.2 ?_⟩
        exact holds.fresh (show r.nextDescriptor ≤ r.nextDescriptor + 1 by lia)
    · rw [t.after_own self _ (by simp)]
      cases hmade : r.pipe.1 with
      | error e => exact ⟨[], failed e, holds.mono grown⟩
      | ok ends =>
        obtain rfl := ready.pipe_ok hmade
        refine ⟨_, made _ ready.descriptor (Int.lt_succ _), ?_⟩
        have room : r.nextDescriptor + 1 + 1 = r.pipe.2.nextDescriptor := by
          rw [Recorder.nextDescriptor_pipe hmade]
          lia
        have beyond := ready.descriptor
        exact room ▸ ((holds.add beyond _).add (by lia) _).perm (List.Perm.swap ..)
  | @dup2 source target next =>
    obtain ⟨mem, standard, keeps⟩ := keeps
    refine ⟨⟨⟨?_, by simp [Action.makes], by simp⟩, trivial⟩, held, keeps _, ?_⟩
    · exact List.forall_mem_singleton.2 (holds.are_open source mem)
    · rw [t.after_own self _ (by simp)]
      rcases (r.plainCall .dup2 (.dup2 source target)).1 with e | _
      · exact holds.mono grown
      · exact (holds.move mem standard).mono grown
  | @close descriptor next =>
    obtain ⟨mem, keeps⟩ := keeps
    refine ⟨⟨⟨?_, by simp [Action.makes], by simp⟩, trivial⟩, _, keeps _, ?_⟩
    · exact List.forall_mem_singleton.2 (holds.are_open descriptor mem)
    · rw [t.after_own self _ (by simp)]
      rcases hdone : (r.plainCall .close (.close descriptor)).1 with e | _
      · -- it stays open, and that is a failure to close
        refine (holds.lose descriptor fun hclean => ?_).mono grown
        exact closes hclean _ List.mem_cons_self ⟨descriptor, e, by rw [hdone]⟩
      · exact (holds.drop mem).mono grown
  | @openFile path direction next =>
    obtain ⟨rfl, failed, opened⟩ := keeps
    refine ⟨⟨⟨by simp [Action.uses], ?_, by simp⟩, trivial⟩, ?_⟩
    · cases hopened : (r.openFile path direction).1 with
      | error e => simp [Action.makes]
      | ok descriptor =>
        obtain rfl := ready.openFile_ok hopened
        exact ⟨by simp [Action.makes], List.forall_mem_singleton.2 (holds.fresh (Int.le_refl _))⟩
    · rw [t.after_own self _ (by simp)]
      cases hopened : (r.openFile path direction).1 with
      | error e => exact ⟨[], failed e, holds.mono grown⟩
      | ok descriptor =>
        obtain rfl := ready.openFile_ok hopened
        refine ⟨_, opened _ ready.descriptor, ?_⟩
        exact Recorder.nextDescriptor_openFile hopened ▸ holds.add ready.descriptor _
  | execFailed =>
    refine ⟨⟨Action.sound_of_quiet rfl rfl (by simp), trivial⟩, held, keeps _, ?_⟩
    rw [t.after_own self _ (by simp)]
    exact holds.mono grown
  | wait =>
    obtain ⟨rfl, keeps⟩ := keeps
    refine ⟨⟨⟨by simp [Action.uses], by simp [Action.makes], ?_⟩, trivial⟩, [], keeps _, ?_⟩
    · exact fun hclean _ _ _ => holds.standard hclean
    · rw [t.after_own self _ (by simp)]
      exact holds.mono grown
  | note =>
    refine ⟨⟨Action.sound_of_quiet rfl rfl (by simp), trivial⟩, held, keeps, ?_⟩
    rw [t.after_own self _ (by simp)]
    exact holds.mono grown
  | report => exact ⟨trivial, held, keeps, holds⟩

/-- **Runs are sound.** In a run of a process that accounts for its descriptors, every call of it
and of its descendants fits the table of its caller. -/
theorem Runs.sound (h : Runs self p r es code r') (keeps : p.Keeps held) (ready : r.Ready self)
    (holds : Holds clean (t.table self) r.nextDescriptor held)
    (closes : clean → ∀ e ∈ es, ¬ e.action.FailsToClose) :
    t.Throughout (Action.Sound clean) es := by
  induction h generalizing held t with
  | exit => trivial
  | exec => exact ⟨Action.sound_of_quiet rfl rfl (by simp), trivial⟩
  | step first rest ih =>
    have hfirst := first.holds keeps ready holds fun hclean e he =>
      closes hclean e (List.mem_append_left _ he)
    obtain ⟨sound, held', keeps', holds'⟩ := hfirst
    exact sound.append (ih keeps' (ready.follows first.follows) holds' fun hclean e he =>
      closes hclean e (List.mem_append_right _ he))
  | @fork self child next r pid r₁ body c r₂ es code r' begun inner rest ihi ihr =>
    have frame := inner.child_frame begun ready.root_lt t
    obtain ⟨rfl, hnext, -, started⟩ := Recorder.beginFork_ok begun self
    have ended := r₂.endFork_follows r.nextPid c
    have hinner : r₁.Ready (some r.nextPid) :=
      { ready.follows started with root_lt := by rintro q ⟨⟩; lia }
    have htotal := (started.append inner.follows).append ended
    have hsplit : Event.started self r.nextPid :: (body ++ .ended r.nextPid c :: es)
        = (.started self r.nextPid :: (body ++ [.ended r.nextPid c])) ++ es := by simp
    -- the child inherits the table, and the process goes on with the table that it had
    have hbody : (t.step (.started self r.nextPid)).Throughout (Action.Sound clean) body := by
      refine ihi keeps.1 hinner ?_ fun hclean e he => closes hclean e (by simp [he])
      have table : (t.step (.started self r.nextPid)).table (some r.nextPid) = t.table self :=
        Function.update_self _ _ _
      exact table ▸ holds.mono started.nextDescriptor
    rw [hsplit]
    refine Tables.Throughout.append ⟨Action.sound_of_quiet rfl rfl (by simp [Event.started]), ?_⟩ ?_
    · exact hbody.append ⟨Action.sound_of_quiet rfl rfl (by simp [Event.ended]), trivial⟩
    · refine ihr (keeps.2 _) (ready.follows htotal) ?_ fun hclean e he =>
        closes hclean e (by simp [he])
      rw [frame]
      exact holds.mono htotal.nextDescriptor

/-! ### Calls that cannot fail -/

/-- Where the world names no fault of a kind, no call of that kind fails. -/
theorem World.fault?_eq_none {world : World} {kind : CallKind}
    (h : ∀ f ∈ world.faults, f.kind ≠ kind) (nth : Nat) : world.fault? kind nth = none := by
  rw [fault?, Option.map_eq_none_iff, List.find?_eq_none]
  intro f hf
  simp [h f hf]

/-- In a world that names no fault of closing, no call of a run fails to close. -/
theorem Runs.closes (h : Runs self p r es code r')
    (sane : ∀ f ∈ r.world.faults, f.kind ≠ .close) : ∀ e ∈ es, ¬ e.action.FailsToClose := by
  induction h with
  | exit => simp
  | exec => simp [Action.FailsToClose]
  | @step self p r es p' r' es' code r'' first rest ih =>
    refine List.forall_mem_append.2 ⟨?_, ih (first.follows.world ▸ sane)⟩
    cases first with
    | close =>
      -- only a fault of the world lets a call fail to close
      refine List.forall_mem_singleton.2 ?_
      rintro ⟨_, e, heq⟩
      simp [Recorder.plainCall, Recorder.attempt, World.fault?_eq_none sane] at heq
    | _ => simp [Action.FailsToClose]
  | @fork self child next r pid r₁ body c r₂ es code r' begun inner rest ihi ihr =>
    obtain ⟨-, -, -, started⟩ := Recorder.beginFork_ok begun self
    have hworld : (r₂.endFork pid c).world = r.world := inner.follows.world.trans started.world
    intro e he
    rcases mem_child.1 he with rfl | he | rfl | he
    · simp [Action.FailsToClose, Event.started]
    · exact ihi (started.world ▸ sane) e he
    · simp [Action.FailsToClose, Event.ended]
    · exact ihr (hworld ▸ sane) e he

/-! ### Lines -/

/-- A process that first gets its standard streams settles its pipes, too. -/
theorem Realizer.settles {aliases : AliasTable} {node : Command} (h : Realizer aliases node p) :
    p.Settles :=
  h.disciplined settles_discipline (node.process_settles aliases)

/-- A process of a line that makes a pipe closes both ends of it before it waits and before it
ends. -/
theorem traceLine_settled (session : Session) (command : Command) (s : RehearsalStage) {q : Caller}
    {before after : List Action} {ends : PipeEnds}
    (made : callsOf q (traceLine session command s) = before ++ .pipe (.ok ends) :: after) :
    ∃ rest code, after = rest ++ [.exit code] ∧ Cleared [ends.read, ends.write] rest := by
  have mem : .pipe (.ok ends) ∈ callsOf q (traceLine session command s) := by simp [made]
  obtain ⟨e, he, rfl, -⟩ := mem_callsOf.1 mem
  obtain ⟨_, _, runs⟩ := traceLine_runs session command s
  rcases runs.caller_started e he with hnone | ⟨pid, hpid, started⟩
  · -- the shell makes none
    rw [hnone] at mem
    obtain ⟨children, conduct, -⟩ := runs.blocks (by simp)
    exact absurd mem ((conduct.cleared (Process.ofLine_clears session command)).no_pipe _)
  · obtain ⟨node, p, es, code, -, realizer, placed⟩ :=
      traceLine_realizer session command s started
    obtain ⟨children, _, _, conduct, -⟩ := placed.children
    rw [hpid, placed.own] at made
    -- the last of the calls is the end of the process
    rcases List.eq_nil_or_concat after with rfl | ⟨rest, last, rfl⟩
    · cases (List.append_inj' made rfl).2
    · rw [List.concat_eq_append] at made ⊢
      rw [← List.cons_append, ← List.append_assoc] at made
      obtain ⟨own, hlast⟩ := List.append_inj' made rfl
      cases hlast
      exact ⟨rest, code, rfl, conduct.settled realizer.settles before ends rest own⟩

/-- **Descriptors are kept.** Commands are executed one after the other on a new recorder, in any
world that lets the recorder hand out its own descriptors; `line` is the trace of the last
execution, `past` that of the others.  The two make up the record.  Every call of `line` that moves
or closes a descriptor finds it open in its process, and one that makes descriptors finds them
closed.  A process that makes a pipe tries to close both of its ends, each once and nothing else,
before it waits for anything and before it ends, which it does.  If no call of `line` fails to
close, which none does in a world without such a fault, then a process that waits has its standard
streams and nothing else open, and standard error is that of the shell. -/
theorem descriptors_kept (world : World) (opens : world.openDescriptors = [])
    (ends : world.pipeDescriptors = []) (tree : FileTree) (earlier : List (Session × Command))
    (session : Session) (command : Command) :
    let start : RehearsalStage := ⟨{ world := world }, tree⟩
    let s := executeAll earlier start
    let past := traceLines earlier start
    let line := traceLine session command s
    let t := Tables.shell.after past
    (execute session command s).2.recorder.calls = (past ++ line).filterMap (·.entry) ∧
      (∀ before e after, line = before ++ e :: after →
        (∀ d ∈ e.action.uses, ((t.after before).table e.caller d).isSome) ∧
          e.action.makes.Nodup ∧ ∀ d ∈ e.action.makes, (t.after before).table e.caller d = none) ∧
      (∀ q before pipe after, callsOf q line = before ++ .pipe (.ok pipe) :: after →
        ∃ rest code, after = rest ++ [.exit code] ∧ Cleared [pipe.read, pipe.write] rest) ∧
      ((∀ e ∈ line, ¬ e.action.FailsToClose) → ∀ before e after pid result,
        line = before ++ e :: after → e.action = .wait pid result →
          ∃ input output, (t.after before).table e.caller = Table.standard input output) ∧
      ((∀ f ∈ world.faults, f.kind ≠ .close) → ∀ e ∈ line, ¬ e.action.FailsToClose) := by
  intro start s past line t
  have hpast : start.recorder.Follows past s.recorder := executeAll_follows earlier start
  have hstart : start.recorder.Ready none := ⟨opens, ends, show (3 : Int) ≤ 10 by decide, by simp⟩
  have hready : s.recorder.Ready none := hstart.follows hpast
  have htable : t.table none = .standard .shellInput .shellOutput := traceLines_table _
  obtain ⟨_, _, runs⟩ := traceLine_runs session command s
  -- what is said of single calls holds throughout; it is read off at the place of each
  have sound : t.Throughout (Action.Sound (∀ e ∈ line, ¬ e.action.FailsToClose)) line :=
    runs.sound (Process.ofLine_keeps session command) hready
      (.of_standard htable hready.descriptor) id
  refine ⟨?_, fun before e after split => ?_, fun q before pipe after made => ?_,
    fun clean before e after pid result split wait => ?_, fun sane => ?_⟩
  · rw [(execute_follows session command s).calls, hpast.calls, List.filterMap_append]
    rfl
  · exact ⟨(sound.at split).uses, (sound.at split).makes⟩
  · exact traceLine_settled session command s made
  · exact (sound.at split).waits clean pid result wait
  · exact runs.closes (hpast.world ▸ sane)

/-- A pipe whose right side cannot be started. -/
theorem descriptors_kept_forkFailed :
    let world : World := { failingFork := some 2 }
    let start : RehearsalStage := ⟨{ world := world }, .empty⟩
    let session : Session := ⟨"/", .defaults⟩
    let line := traceLine session (.pipe (.exec ["a"]) (.exec ["b"])) start
    world.openDescriptors = [] ∧ world.pipeDescriptors = [] ∧
      closesOf (callsOf (some 100) line) = [10, 11] ∧
      ∀ before e after pid result, line = before ++ e :: after → e.action = .wait pid result →
        ∃ input output,
          (Tables.shell.after before).table e.caller = Table.standard input output := by
  intro world start session line
  obtain ⟨-, -, -, waits, closes⟩ := descriptors_kept world rfl rfl .empty [] session
    (.pipe (.exec ["a"]) (.exec ["b"]))
  exact ⟨rfl, rfl, by decide +kernel, waits (closes (by simp [world]))⟩

end LineShell
