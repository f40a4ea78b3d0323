import LineShell.Proofs.Reaping.Tidy
import Mathlib.Logic.Relation

namespace LineShell

/-!
# The blocks of children

Where a tidy trace starts a child, the numbers of processes tell what stands around: smaller ones
before, the child and all below it in its block, larger or older ones behind.

* `Descends` — a process was started, directly or not, by another.
* `Event.Fits`, `Tidy.fits` — which numbers the events of a tidy trace use.
* `Tidy.waited` — every child that is to be waited for is, once.
* `ChildBlock` — what stands around the start of a child.
* `Tidy.block` — a tidy trace has a block around every start.
-/

/-- One process starts another in a trace. -/
def Starts (es : List Event) (parent child : Caller) : Prop :=
  ∃ e ∈ es, e.caller = parent ∧ ∃ pid, e.entry = some (.fork pid) ∧ child = some pid

/-- A process is another one, or was started by it or by one that descends from it. -/
def Descends (es : List Event) : Caller → Caller → Prop :=
  Relation.ReflTransGen (Starts es)

/-- Who descends from whom stays so in a longer trace. -/
theorem Descends.mono {es es' : List Event} {p q : Caller} (h : Descends es p q)
    (sub : ∀ e ∈ es, e ∈ es') : Descends es' p q :=
  Relation.ReflTransGen.mono (fun _ _ ⟨e, he, started⟩ => ⟨e, sub e he, started⟩) _ _ h

/-- An event uses the number of a process: it is a call of it, starts it, waits for it, or puts its
end into the record. -/
def Event.Mentions (e : Event) (pid : Pid) : Prop :=
  e.caller = some pid ∨ e.entry = some (.fork pid) ∨ (∃ result, e.action = .wait pid result) ∨
    ∃ code, e.entry = some (.exit pid code)

/-! ### The numbers in a tidy trace -/

/-- The numbers that an event uses: those of `root` and of its children `pending`, and those from
`n` up to `m`, which are handed out. -/
structure Event.Fits (root : Caller) (pending : List Pid) (n m : Pid) (e : Event) : Prop where
  caller : e.caller = root ∨ Between n m e.caller
  fork : ∀ pid, e.entry = some (.fork pid) → n ≤ pid ∧ pid < m
  exit : ∀ pid code, e.entry = some (.exit pid code) → n ≤ pid ∧ pid < m
  exit_caller : ∀ code, e.action = .exit code → Between n m e.caller
  wait : ∀ pid result, e.action = .wait pid result → pid ∈ pending ∨ (n ≤ pid ∧ pid < m)

/-- A plain event of the process itself fits when it waits for a child, if for any. -/
theorem Event.IsPlain.fits {e : Event} (h : e.IsPlain) (pending : List Pid) (n m : Pid)
    (wait : ∀ pid result, e.action = .wait pid result → pid ∈ pending) :
    e.Fits e.caller pending n m where
  caller := .inl rfl
  fork pid hp := absurd hp (h.entry_fork pid)
  exit pid code hp := absurd hp (h.entry_exit pid code)
  exit_caller code hp := absurd hp (h.action_exit code)
  wait pid result hp := .inl (wait pid result hp)

/-- An event that fits some bounds fits all wider ones. -/
theorem Event.Fits.mono {root : Caller} {pending pending' : List Pid} {n n' m m' : Pid} {e : Event}
    (h : e.Fits root pending n m) (sub : ∀ pid ∈ pending, pid ∈ pending' ∨ (n' ≤ pid ∧ pid < m'))
    (hn : n' ≤ n) (hm : m ≤ m') : e.Fits root pending' n' m' where
  caller := h.caller.imp_right fun between => between.mono hn hm
  fork pid hp := by have := h.fork pid hp; lia
  exit pid code hp := by have := h.exit pid code hp; lia
  exit_caller code hp := (h.exit_caller code hp).mono hn hm
  wait pid result hp := by
    rcases h.wait pid result hp with hmem | hrange
    · exact sub pid hmem
    · exact .inr (by lia)

/-- The start of a child hands out the number of the child. -/
theorem Event.started_fits (root : Caller) (pending : List Pid) {n m : Pid} (h : n < m) :
    (Event.started root n).Fits root pending n m where
  caller := .inl rfl
  fork pid hp := by
    cases hp
    exact ⟨Int.le_refl _, h⟩
  exit pid code hp := by cases hp
  exit_caller code hp := by cases hp
  wait pid result hp := by cases hp

/-- The end of a child is an event of the child. -/
theorem Event.ended_fits (root : Caller) (pending : List Pid) {n m : Pid} (h : n < m) (code : Int) :
    (Event.ended n code).Fits root pending n m where
  caller := .inr ⟨n, rfl, Int.le_refl _, h⟩
  fork pid hp := by cases hp
  exit pid c hp := by
    cases hp
    exact ⟨Int.le_refl _, h⟩
  exit_caller c hp := ⟨n, rfl, Int.le_refl _, h⟩
  wait pid result hp := by cases hp

/-- A wait that is heard is for one process only. -/
theorem Event.Heard.pid_eq {e : Event} {pid pid' : Pid} {result : Except Errno ChildStatus}
    (h : e.Heard pid) (hwait : e.action = .wait pid' result) : pid' = pid := by
  rcases h with ⟨-, status, haction⟩ | ⟨errno, -, haction⟩ <;>
    · rw [haction] at hwait
      cases hwait
      rfl

namespace Tidy

variable {self : Caller} {pending : List Pid} {n m : Pid} {es : List Event}

/-- A tidy trace hands numbers out upwards. -/
theorem le (h : Tidy self pending n es m) : n ≤ m := by
  induction h with
  | done => exact Int.le_refl _
  | call _ _ _ _ ih => exact ih
  | wait _ _ _ _ _ ih => exact ih
  | child _ _ ihi ihr => lia

/-- Each event of a tidy trace has to do only with the process, its children and what they start. -/
theorem fits (h : Tidy self pending n es m) : ∀ e ∈ es, e.Fits self pending n m := by
  induction h with
  | done => simp
  | @call self pending n e es m own plain noWait rest ih =>
    intro x hx
    rcases List.mem_cons.1 hx with rfl | hx
    · exact own ▸ plain.fits pending n m fun pid result h => absurd h (noWait.action pid result)
    · exact ih x hx
  | @wait self pending n e pid es m own plain heard child rest ih =>
    intro x hx
    rcases List.mem_cons.1 hx with rfl | hx
    · exact own ▸ plain.fits pending n m fun pid' result h => heard.pid_eq h ▸ child
    · exact (ih x hx).mono (fun q hq => .inl (List.mem_of_mem_erase hq)) (Int.le_refl _)
        (Int.le_refl _)
  | @child self pending n k m code body es inner rest ihi ihr =>
    have hinner := inner.le
    have hrest := rest.le
    intro x hx
    -- the start of the child, its block, its end, and what comes behind
    rcases mem_child.1 hx with rfl | hx | rfl | hx
    · exact Event.started_fits self pending (by lia)
    · -- what the child does itself has its number, which is among those handed out here
      have hfits : x.Fits (some n) pending n m := (ihi x hx).mono (by simp) (by lia) hrest
      refine { hfits with caller := .inr ?_ }
      rcases hfits.caller with hchild | hbelow
      · exact ⟨n, hchild, Int.le_refl _, by lia⟩
      · exact hbelow
    · exact Event.ended_fits self pending (by lia) code
    · refine (ihr x hx).mono (fun q hq => ?_) (by lia) (Int.le_refl _)
      rcases List.mem_cons.1 hq with rfl | hq
      · exact .inr ⟨Int.le_refl _, by lia⟩
      · exact .inl hq

/-- All that a process and those below it do is done by descendants of it. -/
theorem descends (h : Tidy self pending n es m) : ∀ e ∈ es, Descends es self e.caller := by
  induction h with
  | done => simp
  | @call self pending n e es m own plain noWait rest ih =>
    intro x hx
    rcases List.mem_cons.1 hx with rfl | hx
    · exact own ▸ .refl
    · exact (ih x hx).mono fun y hy => List.mem_cons_of_mem _ hy
  | @wait self pending n e pid es m own plain heard child rest ih =>
    intro x hx
    rcases List.mem_cons.1 hx with rfl | hx
    · exact own ▸ .refl
    · exact (ih x hx).mono fun y hy => List.mem_cons_of_mem _ hy
  | @child self pending n k m code body es inner rest ihi ihr =>
    have started : Starts (.started self n :: (body ++ .ended n code :: es)) self (some n) :=
      ⟨_, List.mem_cons_self, rfl, n, rfl, rfl⟩
    intro x hx
    -- what is done below the child is done below the process that has started it
    rcases mem_child.1 hx with rfl | hx | rfl | hx
    · exact .refl
    · exact .head started ((ihi x hx).mono fun y hy => by simp [hy])
    · exact .single started
    · exact (ihr x hx).mono fun y hy => by simp [hy]

/-- Traces of one process put one behind the other, where the first leaves no child behind. -/
theorem append {k : Pid} {es' : List Event} (h : Tidy self pending n es m)
    (h' : Tidy self [] m es' k) : Tidy self pending n (es ++ es') k := by
  induction h with
  | done => exact h'
  | call own plain noWait _ ih => exact .call own plain noWait (ih h')
  | wait own plain heard child _ ih => exact .wait own plain heard child (ih h')
  | child inner _ _ ihr =>
    rw [List.cons_append, List.append_assoc, List.cons_append]
    exact .child inner (ihr h')

/-- A child that is to be waited for is waited for once, by the process itself. -/
theorem waited (h : Tidy self pending n es m) (nodup : pending.Nodup)
    (lt : ∀ pid ∈ pending, pid < n) {pid : Pid} (hpid : pid ∈ pending) :
    ∃ between w rest, es = between ++ w :: rest ∧ w.caller = self ∧ w.Heard pid ∧
      ∀ e ∈ between ++ rest, ∀ result, e.action ≠ .wait pid result := by
  induction h with
  | done => cases hpid
  | @call self pending n e es m own plain noWait rest ih =>
    obtain ⟨between, w, behind, rfl, hw⟩ := ih nodup lt hpid
    refine ⟨e :: between, w, behind, rfl, hw.1, hw.2.1, fun x hx => ?_⟩
    rcases List.mem_cons.1 hx with rfl | hx
    · exact noWait.action pid
    · exact hw.2.2 x hx
  | @wait self pending n e pid' es m own plain heard child rest ih =>
    by_cases heq : pid = pid'
    · subst heq
      refine ⟨[], e, es, rfl, own, heard, fun x hx result hwait => ?_⟩
      -- behind the wait the number is neither pending nor handed out any more
      rcases (rest.fits x hx).wait pid result hwait with hmem | hrange
      · exact nodup.not_mem_erase hmem
      · have := lt pid child; lia
    · obtain ⟨between, w, behind, rfl, hw⟩ := ih (nodup.erase _)
        (fun q hq => lt q (List.mem_of_mem_erase hq)) ((List.mem_erase_of_ne heq).2 hpid)
      refine ⟨e :: between, w, behind, rfl, hw.1, hw.2.1, fun x hx => ?_⟩
      rcases List.mem_cons.1 hx with rfl | hx
      · exact fun result hwait => heq (heard.pid_eq hwait)
      · exact hw.2.2 x hx
  | @child self pending n k m code body es inner rest ihi ihr =>
    have hnew : n ∉ pending := fun hmem => by have := lt n hmem; lia
    have hinner := inner.le
    have hlt := lt pid hpid
    obtain ⟨between, w, behind, rfl, hw⟩ := ihr (List.nodup_cons.2 ⟨hnew, nodup⟩)
      (fun q hq => by
        rcases List.mem_cons.1 hq with rfl | hq
        · lia
        · have := lt q hq; lia)
      (List.mem_cons_of_mem _ hpid)
    refine ⟨.started self n :: (body ++ .ended n code :: between), w, behind, by simp, hw.1, hw.2.1,
      fun x hx => ?_⟩
    simp only [List.cons_append, List.append_assoc, List.mem_cons, List.mem_append] at hx
    rcases hx with rfl | hx | rfl | hx
    · simp [Event.started]
    · intro result hwait
      rcases (inner.fits x hx).wait pid result hwait with hmem | hrange
      · cases hmem
      · lia
    · simp [Event.ended]
    · exact hw.2.2 x (List.mem_append.2 hx)

end Tidy

/-! ### Blocks -/

/-- An event that has nothing to do with the processes numbered from `pid` up to `k`. -/
structure Event.Outside (pid k : Pid) (e : Event) : Prop where
  caller : ¬ Between pid k e.caller
  fork : ∀ q, e.entry = some (.fork q) → k ≤ q
  wait : ∀ result, e.action ≠ .wait pid result
  exit : ∀ code, e.entry ≠ some (.exit pid code)

/-- What stands in a trace around the block of the child `pid` of `parent`: the events before its
start, those up to its end, those up to the event `w` that waits for it, and the rest.  The
numbers from `pid` up to `k` are those of the child and of all below it. -/
structure ChildBlock (parent : Caller) (pid k : Pid) (before body between : List Event) (w : Event)
    (rest : List Event) : Prop where
  before_lt : ∀ e ∈ before, ∀ q, e.Mentions q → q < pid
  parent_lt : ∀ q, parent = some q → q < pid
  lt : pid < k
  body_fits : ∀ e ∈ body, e.Fits (some pid) [] (pid + 1) k
  body_descends : ∀ e ∈ body, Descends body (some pid) e.caller
  wait_caller : w.caller = parent
  heard : w.Heard pid
  later : ∀ e ∈ between ++ rest, e.Outside pid k
  alive : ∀ e ∈ before ++ between, e.caller = parent → ∀ code, e.action ≠ .exit code

namespace ChildBlock

variable {parent : Caller} {pid k : Pid} {before body between rest : List Event} {w : Event}

/-- A block stays one when earlier events are put before it. -/
theorem append_left (h : ChildBlock parent pid k before body between w rest) {earlier : List Event}
    (lt : ∀ e ∈ earlier, ∀ q, e.Mentions q → q < pid)
    (alive : ∀ e ∈ earlier, e.caller = parent → ∀ code, e.action ≠ .exit code) :
    ChildBlock parent pid k (earlier ++ before) body between w rest :=
  { h with
    before_lt := fun e he => by
      rcases List.mem_append.1 he with he | he
      · exact lt e he
      · exact h.before_lt e he
    alive := fun e he => by
      rw [List.append_assoc] at he
      rcases List.mem_append.1 he with he | he
      · exact alive e he
      · exact h.alive e he }

/-- A call from before the child was started may stand in front. -/
theorem cons (h : ChildBlock parent pid k before body between w rest) {x : Event}
    (lt : ∀ q, x.Mentions q → q < pid) (noExit : ∀ code, x.action ≠ .exit code) :
    ChildBlock parent pid k (x :: before) body between w rest := by
  have hlt : ∀ e ∈ [x], ∀ q, e.Mentions q → q < pid := by simpa using lt
  exact h.append_left hlt (by simp [noExit])

/-- A block stays one when later events are put behind it. -/
theorem append_right (h : ChildBlock parent pid k before body between w rest) {after : List Event}
    (outside : ∀ e ∈ after, e.Outside pid k) :
    ChildBlock parent pid k before body between w (rest ++ after) :=
  { h with
    later := fun e he => by
      rw [← List.append_assoc] at he
      rcases List.mem_append.1 he with he | he
      · exact h.later e he
      · exact outside e he }

end ChildBlock

namespace Event.Fits

variable {root : Caller} {pending : List Pid} {n m : Pid} {e : Event}

/-- The numbers that an event mentions are smaller than all that are handed out later. -/
theorem mentions_lt (h : e.Fits root pending n m) (root_lt : ∀ q, root = some q → q < n)
    (lt : ∀ pid ∈ pending, pid < n) (le : n ≤ m) {q : Pid} (hq : e.Mentions q) : q < m := by
  rcases hq with hcaller | hfork | ⟨result, hwait⟩ | ⟨code, hexit⟩
  · rcases h.caller with hroot | ⟨q', hq', -, hlt⟩
    · have := root_lt q (hroot ▸ hcaller); lia
    · rw [hcaller] at hq'
      cases hq'
      exact hlt
  · exact (h.fork q hfork).2
  · rcases h.wait q result hwait with hmem | hrange
    · have := lt q hmem; lia
    · exact hrange.2
  · exact (h.exit q code hexit).2

/-- A caller with a number that is handed out later has none of the numbers before. -/
theorem not_between (h : e.Fits root pending n m) {lo hi : Pid} (hroot : ¬ Between lo hi root)
    (le : hi ≤ n) : ¬ Between lo hi e.caller := by
  intro hbetween
  rcases h.caller with hcaller | ⟨q, hq, hn, -⟩
  · exact hroot (hcaller ▸ hbetween)
  · obtain ⟨q', hq', -, hlt⟩ := hbetween
    rw [hq] at hq'
    cases hq'
    lia

/-- An event that uses only numbers below and beyond a block is outside of it. -/
theorem outside (h : e.Fits root pending n m) {pid k : Pid} (hroot : ¬ Between pid k root)
    (hpending : pid ∉ pending) (lt : pid < k) (le : k ≤ n) : e.Outside pid k where
  caller := h.not_between hroot le
  fork q hq := by have := h.fork q hq; lia
  wait result hwait := by
    rcases h.wait pid result hwait with hmem | hrange
    · exact hpending hmem
    · lia
  exit code hexit := by have := h.exit pid code hexit; lia

end Event.Fits

/-- A plain event of a process mentions nothing newer than the process and its children. -/
theorem Event.IsPlain.mentions_lt {e : Event} {pending : List Pid} {n : Pid} (h : e.IsPlain)
    (root_lt : ∀ q, e.caller = some q → q < n) (lt : ∀ pid ∈ pending, pid < n)
    (wait : ∀ pid result, e.action = .wait pid result → pid ∈ pending) {q : Pid}
    (hq : e.Mentions q) : q < n :=
  (h.fits pending n n wait).mentions_lt root_lt lt (Int.le_refl _) hq

/-- A process with an old number is not among the new ones. -/
theorem not_between_of_lt {root : Caller} {n lo hi : Pid} (root_lt : ∀ q, root = some q → q < n)
    (le : n ≤ lo) : ¬ Between lo hi root := by
  rintro ⟨q, hq, hle, -⟩
  have := root_lt q hq
  lia

/-- The start of a child mentions no number beyond that of the child. -/
theorem Event.started_le {root : Caller} {n : Pid} (root_lt : ∀ q, root = some q → q < n) {q : Pid}
    (hq : (Event.started root n).Mentions q) : q ≤ n := by
  rcases hq with hq | hq | ⟨result, hq⟩ | ⟨code, hq⟩
  · exact Int.le_of_lt (root_lt q hq)
  · cases hq
    exact Int.le_refl _
  · cases hq
  · cases hq

namespace Tidy

/-! A process with the children `pending` starts one more child, `n`; the numbers from `n` up to
`k` are those of the child and of all below it. -/

variable {self : Caller} {pending : List Pid} {n k m : Pid} {code : Int} {body es : List Event}

/-- The wait for a child stands behind its block. -/
theorem own_block (inner : Tidy (some n) [] (n + 1) body k) (rest : Tidy self (n :: pending) k es m)
    (root_lt : ∀ q, self = some q → q < n) (nodup : (n :: pending).Nodup)
    (lt : ∀ pid ∈ n :: pending, pid < k) :
    ∃ between w behind, es = between ++ w :: behind ∧
      ChildBlock self n k [] body between w behind := by
  -- the child is among those to be waited for, so the rest of the trace holds the wait
  obtain ⟨between, w, behind, rfl, hcaller, hheard, honce⟩ :=
    rest.waited nodup lt List.mem_cons_self
  have hmem : ∀ x ∈ between ++ behind, x ∈ between ++ w :: behind := by
    intro x hx
    rcases List.mem_append.1 hx with hx | hx <;> simp [hx]
  have hlt : n < k := lt n List.mem_cons_self
  refine ⟨between, w, behind, rfl, ?_⟩
  refine ⟨by simp, root_lt, hlt, inner.fits, inner.descends, hcaller, hheard, ?_, ?_⟩
  · intro x hx
    have hfits := rest.fits x (hmem x hx)
    exact ⟨hfits.not_between (not_between_of_lt root_lt (Int.le_refl _)) (Int.le_refl _),
      fun q hq => (hfits.fork q hq).1, honce x hx, fun c hq => by have := hfits.exit n c hq; lia⟩
  · intro x hx hcaller c hexit
    have hfits := rest.fits x (hmem x (List.mem_append_left _ hx))
    exact not_between_of_lt root_lt (Int.le_of_lt hlt) (hcaller ▸ hfits.exit_caller c hexit)

/-- What comes behind a child is outside of the blocks below that child. -/
theorem outside_below (rest : Tidy self (n :: pending) k es m)
    (root_lt : ∀ q, self = some q → q < n) (lt : ∀ pid ∈ pending, pid < n) {pid hi : Pid}
    (hn : n < pid) (hlt : pid < hi) (hk : hi ≤ k) :
    ∀ x ∈ Event.ended n code :: es, x.Outside pid hi := by
  intro x hx
  rcases List.mem_cons.1 hx with rfl | hx
  · refine ⟨?_, by simp [Event.ended], by simp [Event.ended], fun c hq => ?_⟩
    · rintro ⟨q, hq, hle, -⟩
      cases hq
      lia
    · cases hq
      lia
  · refine (rest.fits x hx).outside (not_between_of_lt root_lt (Int.le_of_lt hn)) ?_ hlt hk
    intro hmem
    rcases List.mem_cons.1 hmem with rfl | hmem
    · lia
    · have := lt pid hmem; lia

/-- What a child and those below it do mentions no number that is handed out later. -/
theorem child_lt (inner : Tidy (some n) [] (n + 1) body k) {pid : Pid} (hpid : k ≤ pid) :
    ∀ x ∈ body ++ [.ended n code], ∀ q, x.Mentions q → q < pid := by
  have hle := inner.le
  intro x hx q hq
  rcases List.mem_append.1 hx with hx | hx
  · have := (inner.fits x hx).mentions_lt (by rintro q ⟨⟩; lia) (by simp) hle hq
    lia
  · rw [List.mem_singleton] at hx
    subst hx
    rcases hq with hq | hq | ⟨result, hq⟩ | ⟨c, hq⟩ <;> cases hq <;> lia

/-- No process ends with a child but the child and those below it. -/
theorem child_alive (inner : Tidy (some n) [] (n + 1) body k) {parent : Caller}
    (hparent : ¬ Between n k parent) :
    ∀ x ∈ body ++ [.ended n code], x.caller = parent → ∀ c, x.action ≠ .exit c := by
  have hle := inner.le
  intro x hx hcaller c hexit
  rcases List.mem_append.1 hx with hx | hx
  · exact hparent (hcaller ▸ ((inner.fits x hx).exit_caller c hexit).mono (by lia) (Int.le_refl _))
  · rw [List.mem_singleton] at hx
    subst hx
    exact hparent (hcaller ▸ ⟨n, rfl, Int.le_refl _, by lia⟩)

/-- **Blocks.** Around the start of every child a tidy trace has a block, with the wait for the
child behind it. -/
theorem block (h : Tidy self pending n es m) (root_lt : ∀ q, self = some q → q < n)
    (nodup : pending.Nodup) (lt : ∀ pid ∈ pending, pid < n) {e : Event} (he : e ∈ es) {pid : Pid}
    (hfork : e.entry = some (.fork pid)) :
    ∃ parent k code before body between w rest,
      es = before ++ .started parent pid :: (body ++ .ended pid code :: (between ++ w :: rest)) ∧
        n ≤ pid ∧ k ≤ m ∧ ChildBlock parent pid k before body between w rest := by
  induction h with
  | done => cases he
  | @call self pending n x es m own plain noWait hrest ih =>
    rcases List.mem_cons.1 he with rfl | he
    · exact absurd hfork (plain.entry_fork pid)
    obtain ⟨parent, k, code, before, body, between, w, rest, rfl, hn, hk, block⟩ :=
      ih root_lt nodup lt he
    refine ⟨parent, k, code, x :: before, body, between, w, rest, rfl, hn, hk,
      block.cons (fun q hq => ?_) plain.action_exit⟩
    have hlt := plain.mentions_lt (own ▸ root_lt) lt
      (fun q result hwait => absurd hwait (noWait.action q result)) hq
    lia
  | @wait self pending n x pid' es m own plain heard child hrest ih =>
    rcases List.mem_cons.1 he with rfl | he
    · exact absurd hfork (plain.entry_fork pid)
    obtain ⟨parent, k, code, before, body, between, w, rest, rfl, hn, hk, block⟩ :=
      ih root_lt (nodup.erase _) (fun q hq => lt q (List.mem_of_mem_erase hq)) he
    refine ⟨parent, k, code, x :: before, body, between, w, rest, rfl, hn, hk,
      block.cons (fun q hq => ?_) plain.action_exit⟩
    have hlt := plain.mentions_lt (own ▸ root_lt) lt
      (fun q result hwait => heard.pid_eq hwait ▸ child) hq
    lia
  | @child self pending n k' m code' body' es inner hrest ihi ihr =>
    have hinner := inner.le
    -- the new child has a number that no other child to be waited for has
    have hnew : n ∉ pending := fun hmem => by have := lt n hmem; lia
    have hnodup : (n :: pending).Nodup := List.nodup_cons.2 ⟨hnew, nodup⟩
    have hpending : ∀ q ∈ n :: pending, q < k' := by
      intro q hq
      rcases List.mem_cons.1 hq with rfl | hq
      · lia
      · have := lt q hq; lia
    rcases mem_child.1 he with rfl | he | rfl | he
    · -- the start of the child itself
      have hpid : n = pid := by simpa [Event.started] using hfork
      subst hpid
      obtain ⟨between, w, behind, rfl, block⟩ := own_block inner hrest root_lt hnodup hpending
      exact ⟨self, k', code', [], body', between, w, behind, rfl, Int.le_refl _, hrest.le, block⟩
    · -- a start below the child
      obtain ⟨parent, k, code, before, body, between, w, rest, rfl, hn, hk, block⟩ :=
        ihi (by rintro q ⟨⟩; lia) List.nodup_nil (by simp) he
      have hout : ∀ x ∈ Event.ended n code' :: es, x.Outside pid k :=
        outside_below hrest root_lt lt (by lia) block.lt hk
      refine ⟨parent, k, code, .started self n :: before, body, between, w,
        rest ++ .ended n code' :: es, by simp, by lia, by have := hrest.le; lia, ?_⟩
      refine (block.append_right hout).cons (fun q hq => ?_) (by simp [Event.started])
      have := Event.started_le root_lt hq
      lia
    · cases hfork
    · -- a start behind the child
      obtain ⟨parent, k, code, before, body, between, w, rest, rfl, hn, hk, block⟩ :=
        ihr (fun q hq => by have := root_lt q hq; lia) hnodup hpending he
      have hfits := hrest.fits (.started parent pid) (by simp)
      have hparent : ¬ Between n k' parent :=
        hfits.not_between (not_between_of_lt root_lt (Int.le_refl _)) (Int.le_refl _)
      have hblock : ChildBlock parent pid k (body' ++ [.ended n code'] ++ before) body between w
          rest := block.append_left (child_lt inner hn) (child_alive inner hparent)
      rw [List.append_assoc] at hblock
      refine ⟨parent, k, code, .started self n :: (body' ++ .ended n code' :: before), body,
        between, w, rest, by simp, by lia, hk, ?_⟩
      refine hblock.cons (fun q hq => ?_) (by simp [Event.started])
      have := Event.started_le root_lt hq
      lia

end Tidy

end LineShell
