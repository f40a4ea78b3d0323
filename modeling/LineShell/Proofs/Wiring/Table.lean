import LineShell.Proofs.Trace.Line
import Mathlib.Logic.Function.Basic

namespace LineShell

/-!
# Descriptor tables

The events of a trace are interpreted over the descriptor tables of all processes.  A fork copies
the table of the parent; a pipe and an opened file add descriptors; `dup2` lets its target refer to
what its source refers to; closing removes; a call that fails changes nothing.

* `Stream`, `Table` — what a descriptor refers to, and the open descriptors of a process.
* `Table.step`, `Tables.step`, `Tables.after` — what one call, one event, a trace does to tables.
* `Tables.launches` — the table of the caller and the words of every attempt to run a program.
* `Runs.table_frame` — a run leaves the tables of all other processes alone.
-/

/-! ### Tables -/

/-- What a descriptor refers to.  Pipes are numbered in the order in which they are made. -/
inductive Stream where
  | shellInput
  | shellOutput
  | shellError
  | file (path : String) (direction : Direction)
  | readEnd (pipe : Nat)
  | writeEnd (pipe : Nat)
  deriving DecidableEq

/-- What the descriptors of a process refer to; `none` for those that are not open. -/
abbrev Table := Descriptor → Option Stream

/-- The three standard streams and nothing else. -/
def Table.standard (input output : Stream) : Table := fun d =>
  if d = standardInput then some input
  else if d = standardOutput then some output
  else if d = standardError then some .shellError
  else none

/-- What a call does to the table of its caller, where `pipes` pipes were made before. -/
def Table.step (pipes : Nat) (table : Table) : Action → Table
  | .pipe (.ok ends) =>
    Function.update (Function.update table ends.read (some (.readEnd pipes))) ends.write
      (some (.writeEnd pipes))
  | .dup2 source target (.ok _) => Function.update table target (table source)
  | .close descriptor (.ok _) => Function.update table descriptor none
  | .openFile path direction (.ok descriptor) =>
    Function.update table descriptor (some (.file path direction))
  | _ => table

/-- Only a new pipe needs the number of pipes. -/
theorem Table.step_of_ne_pipe {action : Action} (h : ∀ ends, action ≠ .pipe (.ok ends))
    (pipes pipes' : Nat) (table : Table) : table.step pipes action = table.step pipes' action := by
  unfold Table.step
  split
  case h_1 ends => exact absurd rfl (h ends)
  all_goals rfl

/-- The tables of all processes, and how many pipes were made. -/
structure Tables where
  table : Caller → Table
  pipes : Nat

namespace Tables

/-- Before any call only the shell has descriptors. -/
def shell : Tables where
  table q := if q = none then .standard .shellInput .shellOutput else fun _ => none
  pipes := 0

/-- What an event does to the tables: a fork copies that of the parent, any other call concerns
that of its caller. -/
def step (t : Tables) (e : Event) : Tables where
  table :=
    match e.action with
    | .fork (.ok pid) => Function.update t.table (some pid) (t.table e.caller)
    | action => Function.update t.table e.caller ((t.table e.caller).step t.pipes action)
  pipes :=
    match e.action with
    | .pipe (.ok _) => t.pipes + 1
    | _ => t.pipes

/-- The tables after a trace. -/
def after (t : Tables) (es : List Event) : Tables :=
  es.foldl step t

@[simp]
theorem after_nil (t : Tables) : t.after [] = t := rfl

@[simp]
theorem after_cons (t : Tables) (e : Event) (es : List Event) :
    t.after (e :: es) = (t.step e).after es := rfl

@[simp]
theorem after_append (t : Tables) (es es' : List Event) :
    t.after (es ++ es') = (t.after es).after es' :=
  List.foldl_append

/-- The table of a process that neither makes the call nor is started stays. -/
theorem step_table_of_ne (t : Tables) {e : Event} {q : Caller} (hcaller : q ≠ e.caller)
    (hfork : ∀ pid, e.action = .fork (.ok pid) → q ≠ some pid) :
    (t.step e).table q = t.table q := by
  unfold step
  split
  case h_1 pid h => exact Function.update_of_ne (hfork pid h) _ _
  case h_2 => exact Function.update_of_ne hcaller _ _

/-- What a call that is no fork does to the table of its caller. -/
theorem step_table_self (t : Tables) {e : Event} (hfork : ∀ pid, e.action ≠ .fork (.ok pid)) :
    (t.step e).table e.caller = (t.table e.caller).step t.pipes e.action := by
  unfold step
  split
  case h_1 pid h => exact absurd h (hfork pid)
  case h_2 => exact Function.update_self _ _ _

/-- A note changes no table. -/
@[simp]
theorem step_note (t : Tables) (q : Caller) (notice : Notice) :
    t.step ⟨q, .note notice, none⟩ = t := by
  have htable : Function.update t.table q (t.table q) = t.table := Function.update_eq_self _ _
  show Tables.mk (Function.update t.table q (t.table q)) t.pipes = t
  rw [htable]

/-- Only a new pipe changes the number of pipes. -/
theorem step_pipes_of_ne (t : Tables) {e : Event} (h : ∀ ends, e.action ≠ .pipe (.ok ends)) :
    (t.step e).pipes = t.pipes := by
  show (match e.action with
    | .pipe (.ok _) => t.pipes + 1
    | _ => t.pipes) = t.pipes
  split
  case h_1 ends hpipe => exact absurd hpipe (h ends)
  case h_2 => rfl

/-- Pipes are never unmade. -/
theorem pipes_le_step (t : Tables) (e : Event) : t.pipes ≤ (t.step e).pipes := by
  show t.pipes ≤ match e.action with
    | .pipe (.ok _) => t.pipes + 1
    | _ => t.pipes
  split <;> omega

/-- A trace makes pipes and unmakes none. -/
theorem pipes_le_after (t : Tables) (es : List Event) : t.pipes ≤ (t.after es).pipes := by
  induction es generalizing t with
  | nil => exact Nat.le_refl _
  | cons e es ih => exact Nat.le_trans (t.pipes_le_step e) (ih _)

end Tables

/-! ### Attempts to run a program -/

/-- The words of an attempt to run a program. -/
def Event.argv? (e : Event) : Option (List String) :=
  match e.action with
  | .exec argv _ => some argv
  | _ => none

namespace Tables

/-- For every attempt to run a program in a trace, the table of the caller at that time and the
words. -/
def launches (t : Tables) : List Event → List (Table × List String)
  | [] => []
  | e :: es => (e.argv?.map fun argv => (t.table e.caller, argv)).toList ++ (t.step e).launches es

/-- What is launched in two traces, the second on the tables that the first has left. -/
theorem launches_append (t : Tables) (es es' : List Event) :
    t.launches (es ++ es') = t.launches es ++ (t.after es).launches es' := by
  induction es generalizing t with
  | nil => rfl
  | cons e es ih => rw [List.cons_append, launches, launches, ih, after_cons, List.append_assoc]

/-- A trace without attempts to run a program launches nothing. -/
theorem launches_eq_nil (t : Tables) {es : List Event} (h : ∀ e ∈ es, e.argv? = none) :
    t.launches es = [] := by
  induction es generalizing t with
  | nil => rfl
  | cons e es ih =>
    rw [launches, h e List.mem_cons_self]
    exact ih _ fun x hx => h x (List.mem_cons_of_mem _ hx)

end Tables

/-! ### Frames -/

/-- **Frame.** A run leaves the tables of all processes alone but those of the process itself and
of the ones it starts. -/
theorem Runs.table_frame {self q : Caller} {p : Process} {r r' : Recorder} {es : List Event}
    {code : Int} (h : Runs self p r es code r') (t : Tables) (hself : q ≠ self)
    (hnew : ¬ Between r.nextPid r'.nextPid q) : (t.after es).table q = t.table q := by
  -- The induction is on the trace: all that is needed of the run is who makes its calls.
  have hwithin := h.within
  clear h
  induction es generalizing t with
  | nil => rfl
  | cons e es ih =>
    have he := hwithin e List.mem_cons_self
    rw [Tables.after_cons, ih _ fun x hx => hwithin x (List.mem_cons_of_mem _ hx)]
    refine t.step_table_of_ne (fun hq => ?_) fun pid hfork hq => ?_
    · -- a call is made by the process itself or by a new one
      rcases he.caller with hcaller | hbetween
      · exact hself (hq.trans hcaller)
      · exact hnew (hq ▸ hbetween)
    · exact hnew ⟨pid, hq, he.action_fork pid hfork⟩

/-- A child that runs to its end, and those below it, leave the table of the parent alone. -/
theorem Runs.child_frame {self : Caller} {child : Process} {r r₁ r₂ : Recorder} {pid : Pid}
    {body : List Event} {code : Int} (begun : r.beginFork = (.ok pid, r₁))
    (inner : Runs (some pid) child r₁ body code r₂) (self_lt : ∀ q, self = some q → q < r.nextPid)
    (t : Tables) :
    (t.after (.started self pid :: (body ++ [.ended pid code]))).table self = t.table self := by
  obtain ⟨rfl, hnext, -, -⟩ := Recorder.beginFork_ok begun self
  have hself : self ≠ some r.nextPid := fun heq => by have := self_lt _ heq; lia
  rw [Tables.after_cons, Tables.after_append, Tables.after_cons, Tables.after_nil]
  rw [Tables.step_table_of_ne _ hself (by simp [Event.ended]), inner.table_frame _ hself ?_]
  · exact Function.update_of_ne hself _ _
  · -- the numbers of the child and of those below it are new
    rintro ⟨q, hq, hle, -⟩
    have := self_lt q hq
    lia

/-- The process makes no pipe, opens and closes no descriptor and moves none; its children may. -/
def Process.Steady : Process → Prop
  | .exit _ => True
  | .fork _ next => ∀ result, (next result).Steady
  | .pipe _ => False
  | .dup2 _ _ _ => False
  | .close _ _ => False
  | .openFile _ _ _ => False
  | .exec _ next => ∀ e, (next e).Steady
  | .wait _ next => ∀ result, (next result).Steady
  | .note _ next => next.Steady
  | .report _ next => next.Steady

/-- A call of a process that leaves its descriptors alone leaves its table alone. -/
theorem Step.steady {self : Caller} {p p' : Process} {r r' : Recorder} {es : List Event}
    (h : Step self p r es p' r') (hp : p.Steady) (t : Tables) :
    (t.after es).table self = t.table self ∧ p'.Steady := by
  cases h with
  | forkFailed => exact ⟨Function.update_self self _ _, hp _⟩
  | execFailed => exact ⟨Function.update_self self _ _, hp _⟩
  | wait => exact ⟨Function.update_self self _ _, hp _⟩
  | note => exact ⟨Function.update_self self _ _, hp⟩
  | report => exact ⟨rfl, hp⟩
  | pipe | dup2 | close | openFile => exact hp.elim

/-- A process that leaves its descriptors alone ends with the table that it began with. -/
theorem Runs.steady {self : Caller} {p : Process} {r r' : Recorder} {es : List Event} {code : Int}
    (h : Runs self p r es code r') (hp : p.Steady) (self_lt : ∀ q, self = some q → q < r.nextPid)
    (t : Tables) : (t.after es).table self = t.table self := by
  induction h generalizing t with
  | exit => rfl
  | exec => exact Function.update_self _ _ _
  | step first rest ih =>
    rw [Tables.after_append, ih (first.steady hp t).2 (by rwa [first.nextPid.1])]
    exact (first.steady hp t).1
  | @fork self child next r pid r₁ body c r₂ es code r' begun inner rest _ ih =>
    obtain ⟨rfl, hnext, -, -⟩ := Recorder.beginFork_ok begun self
    have hbody := inner.child_frame begun self_lt t
    have hlt : ∀ q, self = some q → q < (r₂.endFork r.nextPid c).nextPid := by
      intro q hq
      have hgrow : r₁.nextPid ≤ (r₂.endFork r.nextPid c).nextPid := inner.follows.nextPid
      have := self_lt q hq
      lia
    have hsplit : Event.started self r.nextPid :: (body ++ .ended r.nextPid c :: es)
        = (.started self r.nextPid :: (body ++ [.ended r.nextPid c])) ++ es := by simp
    -- up to its end the child is framed, behind it the process goes on by itself
    rw [hsplit, Tables.after_append, ih (hp _) hlt, hbody]

end LineShell
