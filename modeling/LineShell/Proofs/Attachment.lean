import LineShell.Proofs.Descriptors
import Mathlib.Logic.Unique

namespace LineShell

/-!
# Attaching standard streams

A child gets a standard stream by a few calls on its descriptors: it closes what it does not use,
lets the stream refer to what it does use, and closes that too.  The descriptors are any numbers, so
one of them may be the stream itself or the other stream; the order of the calls is right in every
case.

* `Process.Behind` — the ways through some calls, each of which may be refused, and then through a
  process.
* `Process.conduct_attach`, `Process.conduct_openOnto` — the calls of the two preparations.
* `Table.Fits` — calls that find their descriptors as they need them.
* `Table.Rebound` — a table in which a stream has taken the place of some descriptors.
* `streams_attached` — both preparations, on every table.
-/

/-! ### Calls that may be refused -/

/-- The call as it is when the system refuses it. -/
def Action.refused (e : Errno) : Action → Action
  | .dup2 source target _ => .dup2 source target (.error e)
  | .close descriptor _ => .close descriptor (.error e)
  | .openFile path direction _ => .openFile path direction (.error e)
  | action => action

/-- The ways through some calls with a process behind them. -/
inductive Process.Behind (next : Process) :
    List Action → List Action → List (Pid × Process) → Int → Prop
  /-- Behind all of the calls the process goes on. -/
  | done {own children code} (conduct : next.Conduct own children code) :
      Behind next [] own children code
  /-- One call after the other is made. -/
  | call {call calls own children code} (rest : Behind next calls own children code) :
      Behind next (call :: calls) (call :: own) children code
  /-- A call that is refused is the last one: its failure is reported and decides the code. -/
  | refused {call calls failure} (e : Errno)
      (fatal : (call.refused e).failure? false = some failure) :
      Behind next (call :: calls) [call.refused e, .note (.failed failure)] [] failure.exitCode

/-- The calls that move a descriptor to another place. -/
def moveCalls (source target : Descriptor) : List Action :=
  if source = target then [] else [.dup2 source target (.ok ()), .close source (.ok ())]

namespace Process

variable {p next : Process} {own : List Action} {children : List (Pid × Process)} {code : Int}

/-- Behind no calls there is only the process itself. -/
theorem behind_nil : next.Behind [] own children code ↔ next.Conduct own children code := by
  constructor
  · rintro ⟨conduct⟩
    exact conduct
  · exact .done

/-- A process that fails has one way: it reports its failure and ends with the code of that. -/
theorem conduct_fail {failure : Failure} :
    (fail failure).Conduct own children code ↔
      own = [.note (.failed failure)] ∧ children = [] ∧ code = failure.exitCode := by
  rw [fail, conduct_note]
  constructor
  · rintro ⟨own', rfl, rest⟩
    obtain ⟨rfl, rfl, rfl⟩ := conduct_exit.1 (conduct_report.1 rest)
    exact ⟨rfl, rfl, rfl⟩
  · rintro ⟨rfl, rfl, rfl⟩
    exact ⟨[], rfl, conduct_report.2 (conduct_exit.2 ⟨rfl, rfl, rfl⟩)⟩

/-- A process that fails when its first call is refused, and makes some more calls otherwise. -/
theorem conduct_call {α : Type} [Nonempty α] {call : Except Errno α → Action}
    {after : Except Errno α → Process} {failure : Errno → Failure} {calls : α → List Action}
    (first : p.Conduct own children code ↔
      ∃ result own', own = call result :: own' ∧ (after result).Conduct own' children code)
    (refused : ∀ x e, (call (.ok x)).refused e = call (.error e))
    (fatal : ∀ e, (call (.error e)).failure? false = some (failure e))
    (fails : ∀ e, after (.error e) = .fail (failure e))
    (rest : ∀ x own', (after (.ok x)).Conduct own' children code ↔
      next.Behind (calls x) own' children code) :
    p.Conduct own children code ↔
      ∃ x, next.Behind (call (.ok x) :: calls x) own children code := by
  rw [first]
  constructor
  · rintro ⟨e | x, own', rfl, conduct⟩
    · -- whatever the call was to give back, it was refused
      obtain ⟨x⟩ := ‹Nonempty α›
      rw [fails, conduct_fail] at conduct
      obtain ⟨rfl, rfl, rfl⟩ := conduct
      have hfatal : ((call (.ok x)).refused e).failure? false = some (failure e) := by
        rw [refused, fatal]
      exact ⟨x, refused x e ▸ .refused e hfatal⟩
    · exact ⟨x, .call ((rest x own').1 conduct)⟩
  · rintro ⟨x, hbehind⟩
    cases hbehind with
    | call hrest => exact ⟨.ok x, _, rfl, (rest x _).2 hrest⟩
    | refused e hfatal =>
      rw [refused, fatal] at hfatal
      cases hfatal
      refine ⟨.error e, _, by rw [refused], ?_⟩
      rw [fails]
      exact conduct_fail.2 ⟨rfl, rfl, rfl⟩

/-- The same for a call that gives nothing back. -/
theorem conduct_then {call : Except Errno Unit → Action} {after : Except Errno Unit → Process}
    {failure : Errno → Failure} {calls : List Action}
    (first : p.Conduct own children code ↔
      ∃ result own', own = call result :: own' ∧ (after result).Conduct own' children code)
    (refused : ∀ e, (call (.ok ())).refused e = call (.error e))
    (fatal : ∀ e, (call (.error e)).failure? false = some (failure e))
    (fails : ∀ e, after (.error e) = .fail (failure e))
    (rest : ∀ own', (after (.ok ())).Conduct own' children code ↔
      next.Behind calls own' children code) :
    p.Conduct own children code ↔ next.Behind (call (.ok ()) :: calls) own children code :=
  (conduct_call first (fun _ => refused) fatal fails fun _ => rest).trans Unique.exists_iff

/-! ### The calls of the preparations -/

/-- A descriptor that is moved is copied and then closed, unless it is in its place already. -/
theorem conduct_moveTo (source target : Descriptor) :
    (moveTo source target next).Conduct own children code ↔
      next.Behind (moveCalls source target) own children code := by
  unfold moveTo moveCalls
  split
  case isTrue => exact behind_nil.symm
  case isFalse =>
    refine conduct_then conduct_dup2 (fun _ => rfl) (fun _ => rfl) (fun _ => rfl) fun _ => ?_
    exact conduct_then conduct_close (fun _ => rfl) (fun _ => rfl) (fun _ => rfl) fun _ =>
      behind_nil.symm

/-- A child of a pipe closes the end that it does not use and moves the other. -/
theorem conduct_attach (unused used target : Descriptor) :
    (attach unused used target next).Conduct own children code ↔
      next.Behind (.close unused (.ok ()) :: moveCalls used target) own children code :=
  conduct_then conduct_close (fun _ => rfl) (fun _ => rfl) (fun _ => rfl) fun _ =>
    conduct_moveTo used target

/-- The child of a redirect opens its file and moves the descriptor that it is given. -/
theorem conduct_openOnto (path : String) (direction : Direction) :
    (openOnto path direction next).Conduct own children code ↔
      ∃ descriptor, next.Behind
        (.openFile path direction (.ok descriptor) :: moveCalls descriptor direction.stream) own
        children code :=
  conduct_call conduct_openFile (fun _ _ => rfl) (fun _ => rfl) (fun _ => rfl)
    fun descriptor _ => conduct_moveTo descriptor direction.stream

end Process

namespace Table

variable {table : Table} {pipes : Nat}

/-! ### Calls that fit a table -/

/-- Calls that are made one after the other, starting on a table: each one goes well, finds what it
uses open and what it makes closed. -/
def Fits (pipes : Nat) : Table → List Action → Prop
  | _, [] => True
  | table, call :: calls =>
    call.failure? false = none ∧ (∀ d ∈ call.uses, (table d).isSome) ∧
      (∀ d ∈ call.makes, table d = none) ∧ Fits pipes (table.step pipes call) calls

/-- A call that closes an open descriptor fits, if the others fit the table without it. -/
theorem fits_close {descriptor : Descriptor} {calls : List Action}
    (is_open : (table descriptor).isSome)
    (rest : Fits pipes (Function.update table descriptor none) calls) :
    table.Fits pipes (.close descriptor (.ok ()) :: calls) :=
  ⟨rfl, List.forall_mem_singleton.2 is_open, by simp [Action.makes], rest⟩

/-- The calls that move an open descriptor fit every table. -/
theorem fits_moveCalls {source : Descriptor} (is_open : (table source).isSome)
    (target : Descriptor) : table.Fits pipes (moveCalls source target) := by
  unfold moveCalls
  split
  case isTrue => trivial
  case isFalse hne =>
    refine ⟨rfl, List.forall_mem_singleton.2 is_open, by simp [Action.makes], ?_⟩
    refine fits_close ?_ trivial
    -- the source is not the stream that was overwritten
    show (Function.update table target (table source) source).isSome
    rwa [Function.update_of_ne hne]

/-- The calls of a move make the move. -/
theorem foldl_moveCalls (source target : Descriptor) :
    (moveCalls source target).foldl (step pipes) table = table.move source target := by
  unfold moveCalls
  split
  case isTrue heq => rw [heq, move_self, List.foldl_nil]
  case isFalse hne => exact (move_of_ne hne table).symm

/-! ### Streams in their places -/

/-- How a table is left when a stream has taken the place of the descriptors that it was made of:
`target` refers to the stream, those that were spent are closed, and all others stay. -/
structure Rebound (table after : Table) (target : Descriptor) (stream : Option Stream)
    (spent : List Descriptor) : Prop where
  placed : after target = stream
  closed : ∀ d ∈ spent, d ≠ target → after d = none
  kept : ∀ d, d ∉ spent → d ≠ target → after d = table d

/-- Moving a descriptor spends it. -/
theorem rebound_move (table : Table) (source target : Descriptor) :
    table.Rebound (table.move source target) target (table source) [source] where
  placed := if_pos rfl
  closed d hd htarget := by
    rw [List.mem_singleton] at hd
    rw [move, if_neg htarget, if_pos hd]
  kept d hd htarget := by
    rw [List.mem_singleton] at hd
    rw [move, if_neg htarget, if_neg hd]

/-- More descriptors are spent when the table was another one before, which differs at those only,
and when they are closed behind. -/
theorem Rebound.widen {before after : Table} {target : Descriptor} {stream : Option Stream}
    {spent spent' : List Descriptor} (h : before.Rebound after target stream spent)
    (subset : spent ⊆ spent') (agree : ∀ d, d ∉ spent' → before d = table d)
    (closed : ∀ d ∈ spent', d ∉ spent → d ≠ target → after d = none) :
    table.Rebound after target stream spent' where
  placed := h.placed
  closed d hd htarget := by
    by_cases hspent : d ∈ spent
    · exact h.closed d hspent htarget
    · exact closed d hd hspent htarget
  kept d hd htarget := by
    rw [h.kept d (fun hspent => hd (subset hspent)) htarget, agree d hd]

/-- Closing one descriptor and moving another spends both. -/
theorem rebound_attach (table : Table) {unused used : Descriptor} (hne : unused ≠ used)
    (target : Descriptor) :
    table.Rebound (Table.move used target (Function.update table unused none)) target (table used)
      [unused, used] := by
  have hused : Function.update table unused none used = table used :=
    Function.update_of_ne hne.symm _ _
  have hmove := rebound_move (Function.update table unused none) used target
  rw [hused] at hmove
  refine hmove.widen (by simp) (fun d hd => ?_) fun d hd hspent htarget => ?_
  · exact Function.update_of_ne (fun heq => hd (by simp [heq])) _ _
  · -- what is closed is not what is moved, and the move does not open it again
    obtain rfl : d = unused := by simpa [hspent] using hd
    rw [hmove.kept d hspent htarget, Function.update_self]

/-- Moving a descriptor that was just made leaves nothing of it. -/
theorem rebound_openOnto (table : Table) (descriptor target : Descriptor) (stream : Stream) :
    table.Rebound (Table.move descriptor target (Function.update table descriptor (some stream)))
      target (some stream) [descriptor] := by
  have hmade : Function.update table descriptor (some stream) descriptor = some stream :=
    Function.update_self ..
  have hmove := rebound_move (Function.update table descriptor (some stream)) descriptor target
  rw [hmade] at hmove
  refine hmove.widen (by simp) (fun d hd => ?_) fun d hd hspent => absurd hd hspent
  exact Function.update_of_ne (by simpa using hd) _ _

end Table

/-- **Streams are attached.** A child of a pipe with two different open descriptors, and the child
of a redirect that is given a descriptor which was not open, each go through some calls, in every
process: a call that is refused is the last one and its failure decides the code, and behind all
of them the process goes on.  The calls fit the table of the process.  They put the end of the pipe,
or the opened file, in the place of the standard stream, leave none of the descriptors that they
were given open besides, and touch no other one. -/
theorem streams_attached (pipes : Nat) (table : Table) :
    (∀ unused used target : Descriptor, unused ≠ used → (table unused).isSome →
      (table used).isSome → ∃ calls : List Action,
        (∀ next own children code, (attach unused used target next).Conduct own children code ↔
          next.Behind calls own children code) ∧
        table.Fits pipes calls ∧
        table.Rebound (calls.foldl (Table.step pipes) table) target (table used) [unused, used]) ∧
    ∀ path direction, ∃ calls : Descriptor → List Action,
      (∀ next own children code, (openOnto path direction next).Conduct own children code ↔
        ∃ descriptor, next.Behind (calls descriptor) own children code) ∧
      ∀ descriptor, table descriptor = none →
        (calls descriptor).head? = some (.openFile path direction (.ok descriptor)) ∧
        table.Fits pipes (calls descriptor) ∧
        table.Rebound ((calls descriptor).foldl (Table.step pipes) table) direction.stream
          (some (.file path direction)) [descriptor] := by
  constructor
  · intro unused used target hne unused_open used_open
    refine ⟨_, fun next own children code => Process.conduct_attach unused used target, ?_, ?_⟩
    · refine Table.fits_close unused_open (Table.fits_moveCalls ?_ target)
      rwa [Function.update_of_ne hne.symm]
    · rw [List.foldl_cons, Table.foldl_moveCalls]
      exact table.rebound_attach hne target
  · intro path direction
    refine ⟨_, fun next own children code => Process.conduct_openOnto path direction, ?_⟩
    intro descriptor fresh
    refine ⟨rfl, ⟨rfl, by simp [Action.uses], List.forall_mem_singleton.2 fresh, ?_⟩, ?_⟩
    · refine Table.fits_moveCalls ?_ _
      show (Function.update table descriptor (some (.file path direction)) descriptor).isSome
      rw [Function.update_self]
      rfl
    · rw [List.foldl_cons, Table.foldl_moveCalls]
      exact table.rebound_openOnto descriptor direction.stream _

/-- A pipe that was made in the place of both standard streams, the wrong way round: its left side
closes standard output, and puts the end that stands in standard input there. -/
theorem streams_attached_crossed :
    let table : Table := fun d =>
      if d = standardInput then some (.writeEnd 0)
      else if d = standardOutput then some (.readEnd 0) else none
    ∃ calls : List Action,
      (∀ next own children code,
        (attach standardOutput standardInput standardOutput next).Conduct own children code ↔
          next.Behind calls own children code) ∧
      calls.foldl (Table.step 1) table standardOutput = some (.writeEnd 0) ∧
      calls.foldl (Table.step 1) table standardInput = none := by
  intro table
  obtain ⟨calls, conduct, -, rebound⟩ :=
    (streams_attached 1 table).1 standardOutput standardInput standardOutput (by decide) rfl rfl
  exact ⟨calls, conduct, rebound.placed, rebound.closed standardInput (by simp) (by decide)⟩

end LineShell
