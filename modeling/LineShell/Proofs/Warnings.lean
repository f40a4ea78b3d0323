import LineShell.Line
import LineShell.Proofs.Ending
import LineShell.Proofs.Reaping
import Mathlib.Data.List.Basic

namespace LineShell

/-!
# Warnings of children that did not succeed

A process that realizes a pipe or a redirect warns of each child that did not succeed, once it has
heard of all its children.  A wait that fails makes it end at once, and then what it has heard of
the other child is lost.

* `Warned` — calls that warn of every end they hear of, or of none when a wait fails.
* `Process.Warns`, `Command.process_warns` — the processes whose calls do so.
* `Tidy.waits_nodup` — no process is waited for twice.
* `ends_warned` — what the log of a line says of the children that were waited for.
* `ends_lost` — a line whose log does not warn of a program that failed.
-/

/-! ### Calls that warn -/

/-- The status that a record of the log warns of. -/
def Notice.abnormal? : Notice → Option ChildStatus
  | .abnormalEnd status => some status
  | _ => none

/-- The status that a call warns of. -/
def Action.abnormal? : Action → Option ChildStatus
  | .note notice => notice.abnormal?
  | _ => none

/-- The status that a call has got by waiting. -/
def Action.heard? : Action → Option ChildStatus
  | .wait _ (.ok status) => some status
  | _ => none

/-- Whether a call is a wait that fails. -/
def Action.failsToWait : Action → Bool
  | .wait _ (.error _) => true
  | _ => false

/-- The statuses that calls have to warn of: those of children that did not succeed, unless a wait
fails. -/
def abnormalIn (own : List Action) : List ChildStatus :=
  if own.any Action.failsToWait then []
  else (own.filterMap Action.heard?).filter fun status => !status.isSuccess

/-- Calls that warn of what they have to, in order and each once, and of nothing else. -/
def Warned (own : List Action) : Prop :=
  own.filterMap Action.abnormal? = abnormalIn own

namespace Warned

variable {own : List Action} {a : Action}

theorem nil : Warned [] := rfl

/-- A call that warns of nothing and is no wait. -/
theorem cons (h : Warned own) (silent : a.abnormal? = none)
    (noWait : ∀ pid result, a ≠ .wait pid result) : Warned (a :: own) := by
  have heard : a.heard? = none := by
    cases a with
    | wait pid result => exact absurd rfl (noWait pid result)
    | _ => rfl
  have fails : a.failsToWait = false := by
    cases a with
    | wait pid result => exact absurd rfl (noWait pid result)
    | _ => rfl
  rw [Warned, abnormalIn, List.filterMap_cons_none silent, List.filterMap_cons_none heard,
    List.any_cons, fails, Bool.false_or]
  exact h

/-- A call behind the others that warns of nothing and is no wait. -/
theorem concat (h : Warned own) (silent : a.abnormal? = none) (heard : a.heard? = none)
    (fails : a.failsToWait = false) : Warned (own ++ [a]) := by
  simp only [Warned, abnormalIn, List.filterMap_append, List.any_append, List.filterMap_cons_none,
    silent, heard, List.any_cons, fails, List.filterMap_nil, List.append_nil, List.any_nil,
    Bool.or_false]
  exact h

end Warned

/-- The process warns of nothing before it waits, and from its first wait on its calls warn of what
they have to. -/
def Process.Warns : Process → Prop
  | .exit _ => True
  | .fork _ next => ∀ result, (next result).Warns
  | .pipe next => ∀ result, (next result).Warns
  | .dup2 _ _ next => ∀ result, (next result).Warns
  | .close _ next => ∀ result, (next result).Warns
  | .openFile _ _ next => ∀ result, (next result).Warns
  | .exec _ next => ∀ e, (next e).Warns
  | .wait pid next =>
    ∀ own children code, (Process.wait pid next).Conduct own children code → Warned own
  | .note notice next => notice.abnormal? = none ∧ next.Warns
  | .report _ next => next.Warns

/-- A process that warns as it has to does so on every way through its tree of calls. -/
theorem Process.Conduct.warned {p : Process} {own : List Action} {children : List (Pid × Process)}
    {code : Int} (h : p.Conduct own children code) (warns : p.Warns) : Warned own := by
  induction h with
  | exit => exact .nil
  | exec => exact Warned.nil.cons rfl (by simp)
  | move first rest ih =>
    cases first with
    | wait => exact warns _ _ _ (.move .wait rest)
    | note => exact (ih warns.2).cons warns.1 (by simp)
    | report => exact ih warns
    | _ => exact (ih (warns _)).cons rfl (by simp)
  | fork rest ih => exact (ih (warns _)).cons rfl (by simp)

/-! ### The parts of a process -/

variable {next : Process} {own : List Action} {children : List (Pid × Process)} {code : Int}

/-- A process that fails makes no call but the note of its failure. -/
theorem fail_calls {failure : Failure} (h : (Process.fail failure).Conduct own children code) :
    own = [.note (.failed failure)] := by
  obtain ⟨own₁, rfl, noted⟩ := Process.conduct_note.1 h
  obtain ⟨rfl, -, -⟩ := Process.conduct_exit.1 (Process.conduct_report.1 noted)
  rfl

/-- The calls of a process that warns of a status, if it has to. -/
theorem noteEnd_calls {status : ChildStatus}
    (h : (noteEnd status next).Conduct own children code) :
    ∃ own', own = (if status.isSuccess then [] else [.note (.abnormalEnd status)]) ++ own' ∧
      next.Conduct own' children code := by
  unfold noteEnd at h
  split at h
  case isTrue success => exact ⟨own, by simp [success], h⟩
  case isFalse failed =>
    obtain ⟨own₁, rfl, noted⟩ := Process.conduct_note.1 h
    exact ⟨own₁, by simp [failed], noted⟩

/-- A process that fails warns of nothing. -/
theorem fail_warns (failure : Failure) : (Process.fail failure).Warns := ⟨rfl, trivial⟩

/-- Calls that set up the standard streams have no part in the warnings. -/
theorem warns_discipline : Process.Discipline Process.Warns where
  fail := fail_warns
  dup2 _ _ _ h := h
  close _ _ h := h
  openFile _ _ _ h := h

/-- Closing an end of a pipe tells of no child. -/
theorem closeEnd_warns (descriptor : Descriptor) (h : next.Warns) :
    (closeEnd descriptor next).Warns := by
  rintro (e | _)
  · exact ⟨rfl, h⟩
  · exact h

theorem closeEnds_warns (ends : PipeEnds) (h : next.Warns) : (closeEnds ends next).Warns :=
  closeEnd_warns ends.read (closeEnd_warns ends.write h)

/-- A process that launches a program warns of nothing. -/
theorem launch_warns (aliases : AliasTable) (argv : List String) :
    (launch aliases argv).Warns := by
  unfold launch
  split
  · exact fail_warns _
  · exact ⟨rfl, fun e => fail_warns _⟩

/-- The one child of a pipe that failed is warned of as it ended. -/
theorem abandonPipe_warns (left : Pid) (errno : Errno) : (abandonPipe left errno).Warns := by
  intro own children code h
  obtain ⟨e | status, own₁, rfl, waited⟩ := Process.conduct_wait.1 h
  · rw [fail_calls waited]
    rfl
  · obtain ⟨own₂, rfl, failed⟩ := noteEnd_calls waited
    rw [fail_calls failed]
    cases hs : status.isSuccess <;> simp [Warned, abnormalIn, List.filterMap_cons,
      Action.abnormal?, Action.heard?, Action.failsToWait, Notice.abnormal?, hs]

/-- The child of a redirect is warned of as it ended. -/
theorem awaitRedirect_warns (pid : Pid) : (awaitRedirect pid).Warns := by
  intro own children code h
  obtain ⟨e | status, own₁, rfl, waited⟩ := Process.conduct_wait.1 h
  · rw [fail_calls waited]
    rfl
  · obtain ⟨own₂, rfl, ended⟩ := noteEnd_calls waited
    obtain ⟨rfl, -, -⟩ := Process.conduct_exit.1 ended
    cases hs : status.isSuccess <;> simp [Warned, abnormalIn, List.filterMap_cons,
      Action.abnormal?, Action.heard?, Action.failsToWait, Notice.abnormal?, hs]

/-- Behind two waits there is a warning for each side, or for none if one of the waits fails. -/
theorem awaitPipe_warns (left right : Pid) : (awaitPipe left right).Warns := by
  intro own children code h
  obtain ⟨leftResult, own₁, rfl, waited⟩ := Process.conduct_wait.1 h
  obtain ⟨rightResult, own₂, rfl, waited'⟩ := Process.conduct_wait.1 waited
  rcases leftResult with e | leftStatus
  · rw [fail_calls waited']
    rfl
  rcases rightResult with e | rightStatus
  · -- what was heard of the left side is not told
    rw [fail_calls waited']
    rfl
  · obtain ⟨own₃, rfl, noted⟩ := noteEnd_calls waited'
    obtain ⟨own₄, rfl, ended⟩ := noteEnd_calls noted
    obtain ⟨rfl, -, -⟩ := Process.conduct_exit.1 ended
    cases hl : leftStatus.isSuccess <;> cases hr : rightStatus.isSuccess <;>
      simp [Warned, abnormalIn, List.filterMap_cons, Action.abnormal?, Action.heard?,
        Action.failsToWait, Notice.abnormal?, hl, hr]

/-- **Commands warn.** The process of a command warns of the children that did not succeed, unless
one of its waits fails. -/
theorem Command.process_warns (aliases : AliasTable) (command : Command) :
    (command.process aliases).Warns := by
  cases command with
  | exec argv => exact launch_warns aliases argv
  | pipe left right =>
    rintro (e | ends)
    · exact fail_warns _
    rintro (e | leftPid)
    · exact closeEnds_warns ends (fail_warns _)
    rintro (e | rightPid)
    · exact closeEnds_warns ends (abandonPipe_warns leftPid e)
    · exact closeEnds_warns ends ⟨rfl, awaitPipe_warns leftPid rightPid⟩
  | redirect inner direction path =>
    rintro (e | pid)
    · exact fail_warns _
    · exact ⟨rfl, awaitRedirect_warns pid⟩

/-- A process that first gets its standard streams warns of its children, too. -/
theorem Realizer.warns {aliases : AliasTable} {node : Command} {p : Process}
    (h : Realizer aliases node p) : p.Warns :=
  h.disciplined warns_discipline (node.process_warns aliases)

/-! ### Waits -/

/-- The process that a call waits for. -/
def Action.waited? : Action → Option Pid
  | .wait pid _ => some pid
  | _ => none

theorem Action.waited?_eq_some {a : Action} {pid : Pid} :
    a.waited? = some pid ↔ ∃ result, a = .wait pid result := by
  cases a <;> simp [Action.waited?]

/-- The processes that events wait for, also where the wait fails. -/
def waitsOf (es : List Event) : List Pid :=
  es.filterMap fun e => e.action.waited?

/-- The children that are waited for in a trace are those of its waits. -/
theorem mem_waitsOf {es : List Event} {pid : Pid} :
    pid ∈ waitsOf es ↔ ∃ e ∈ es, ∃ result, e.action = .wait pid result := by
  simp [waitsOf, Action.waited?_eq_some]

/-- **One wait for each.** In a tidy trace no process is waited for twice. -/
theorem Tidy.waits_nodup {self : Caller} {pending : List Pid} {n m : Pid} {es : List Event}
    (h : Tidy self pending n es m) (nodup : pending.Nodup) (lt : ∀ pid ∈ pending, pid < n) :
    (waitsOf es).Nodup := by
  induction h with
  | done => exact List.nodup_nil
  | @call self pending n e es m own plain noWait rest ih =>
    have silent : e.action.waited? = none := Option.eq_none_iff_forall_ne_some.2 fun pid hpid => by
      obtain ⟨result, hwait⟩ := Action.waited?_eq_some.1 hpid
      exact noWait.action pid result hwait
    have hcons : waitsOf (e :: es) = waitsOf es := List.filterMap_cons_none silent
    exact hcons ▸ ih nodup lt
  | @wait self pending n e pid es m own plain heard child rest ih =>
    obtain ⟨result, hwait⟩ := heard.waits
    have hcons : waitsOf (e :: es) = pid :: waitsOf es :=
      List.filterMap_cons_some (Action.waited?_eq_some.2 ⟨result, hwait⟩)
    rw [hcons]
    refine List.nodup_cons.2 ⟨fun hmem => ?_, ?_⟩
    · -- it is not to be waited for any more, and its number is not handed out again
      obtain ⟨e', he', result', hwait'⟩ := mem_waitsOf.1 hmem
      rcases (rest.fits e' he').wait pid result' hwait' with hpending | hnew
      · exact (nodup.mem_erase_iff.1 hpending).1 rfl
      · have := lt pid child
        lia
    · exact ih (nodup.erase pid) fun q hq => lt q (List.mem_of_mem_erase hq)
  | @child self pending n k m code body es inner rest ihi ihr =>
    have hlt : n < k := by
      have := inner.le
      lia
    have hsplit : waitsOf (.started self n :: (body ++ .ended n code :: es))
        = waitsOf body ++ waitsOf es := by
      simp [waitsOf, Event.started, Event.ended, Action.waited?]
    rw [hsplit, List.nodup_append]
    refine ⟨ihi List.nodup_nil (by simp), ihr ?_ ?_, fun a ha b hb hab => ?_⟩
    · exact List.nodup_cons.2 ⟨fun hmem => by have := lt n hmem; lia, nodup⟩
    · refine List.forall_mem_cons.2 ⟨hlt, fun q hq => ?_⟩
      have := lt q hq
      lia
    · -- below the child only children of its own block are waited for
      obtain ⟨e, he, result, hwait⟩ := mem_waitsOf.1 ha
      obtain ⟨e', he', result', hwait'⟩ := mem_waitsOf.1 hb
      have hinner := (inner.fits e he).wait a result hwait
      have hrest := (rest.fits e' he').wait b result' hwait'
      rcases hinner with hinner | hinner
      · cases hinner
      · rcases hrest with hrest | hrest
        · rcases List.mem_cons.1 hrest with heq | hrest
          · lia
          · have := lt b hrest
            lia
        · lia

theorem Action.heard?_eq_some {a : Action} {status : ChildStatus} :
    a.heard? = some status ↔ ∃ pid, a = .wait pid (.ok status) := by
  cases a with
  | wait pid result => cases result <;> simp [Action.heard?]
  | _ => simp [Action.heard?]

/-- In the trace that consists of `before`, the event `w` and `after`, only `w` waits for the
process `pid`, and hears of it. -/
structure OnlyWait (before : List Event) (w : Event) (after : List Event) (pid : Pid)
    (status : ChildStatus) : Prop where
  action : w.action = .wait pid (.ok status)
  alone : ∀ e ∈ before ++ after, ∀ result, e.action ≠ .wait pid result
  pids : ∀ e ∈ before ++ w :: after, ∀ p st, e.action = .wait p (.ok st) → st.pid = p

namespace OnlyWait

variable {before after : List Event} {w : Event} {pid : Pid} {status : ChildStatus}

/-- Where no child is waited for twice, a wait is the only one for its child. -/
theorem of_nodup (action : w.action = .wait pid (.ok status))
    (nodup : (waitsOf (before ++ w :: after)).Nodup)
    (pids : ∀ e ∈ before ++ w :: after, ∀ p st, e.action = .wait p (.ok st) → st.pid = p) :
    OnlyWait before w after pid status := by
  refine ⟨action, fun e he result hwait => ?_, pids⟩
  have hsplit : waitsOf (before ++ w :: after) = waitsOf before ++ pid :: waitsOf after := by
    simp [waitsOf, action, Action.waited?]
  rw [hsplit, List.nodup_append, List.nodup_cons] at nodup
  obtain ⟨-, ⟨hafter, -⟩, apart⟩ := nodup
  rcases List.mem_append.1 he with he | he
  · exact apart pid (mem_waitsOf.2 ⟨e, he, result, hwait⟩) pid List.mem_cons_self rfl
  · exact hafter (mem_waitsOf.2 ⟨e, he, result, hwait⟩)

/-- The status that is heard is that of the child that was waited for. -/
theorem pid_eq (h : OnlyWait before w after pid status) : status.pid = pid :=
  h.pids w (by simp) pid status h.action

/-- Whoever hears of the process does so there. -/
theorem eq_of_heard (h : OnlyWait before w after pid status) {e : Event}
    (he : e ∈ before ++ w :: after) {p : Pid} {st : ChildStatus}
    (heard : e.action = .wait p (.ok st)) (hpid : st.pid = pid) : e = w := by
  obtain rfl : p = pid := (h.pids e he p st heard).symm.trans hpid
  rcases List.mem_append.1 he with he | he
  · exact absurd heard (h.alone e (List.mem_append_left _ he) _)
  · rcases List.mem_cons.1 he with rfl | he
    · rfl
    · exact absurd heard (h.alone e (List.mem_append_right _ he) _)

/-- Around the wait nothing is heard of the process. -/
theorem silent (h : OnlyWait before w after pid status) {es : List Event}
    (sub : ∀ e ∈ es, e ∈ before ++ after) (q : Caller) :
    ((callsOf q es).filterMap Action.heard?).filter (·.pid == pid) = [] := by
  refine List.filter_eq_nil_iff.2 fun st hst hp => ?_
  obtain ⟨a, ha, hheard⟩ := List.mem_filterMap.1 hst
  obtain ⟨p, rfl⟩ := Action.heard?_eq_some.1 hheard
  obtain ⟨e, he, -, haction⟩ := mem_callsOf.1 ha
  have hline : e ∈ before ++ w :: after := by
    rcases List.mem_append.1 (sub e he) with he | he
    · exact List.mem_append_left _ he
    · exact List.mem_append_right _ (List.mem_cons_of_mem _ he)
  have same : e = w := h.eq_of_heard hline haction (by simpa using hp)
  exact h.alone e (sub e he) _ (same ▸ h.action)

/-- All that its process hears of the process waited for is the status. -/
theorem heard (h : OnlyWait before w after pid status) :
    ((callsOf w.caller (before ++ w :: after)).filterMap Action.heard?).filter (·.pid == pid)
      = [status] := by
  have hstatus : (Action.wait pid (.ok status)).heard? = some status := rfl
  rw [callsOf_append, callsOf_cons_self rfl, h.action, List.filterMap_append, List.filter_append,
    h.silent (by simp +contextual), List.nil_append, List.filterMap_cons_some hstatus,
    List.filter_cons, if_pos (by simpa using h.pid_eq), h.silent (by simp +contextual)]

end OnlyWait

/-! ### The log of a line -/

/-- The record warns of the end of a process. -/
def Notice.warnsOf (pid : Pid) (notice : Notice) : Bool :=
  notice.abnormal?.any fun status => status.pid == pid

/-- Only a warning of an abnormal end tells of a status. -/
theorem Notice.abnormal?_eq_some {notice : Notice} {status : ChildStatus} :
    notice.abnormal? = some status ↔ notice = .abnormalEnd status := by
  cases notice <;> simp [Notice.abnormal?]

/-- The warnings that name a child are those of its statuses. -/
theorem filter_warnsOf (log : List Notice) (pid : Pid) :
    log.filter (Notice.warnsOf pid)
      = ((log.filterMap Notice.abnormal?).filter (·.pid == pid)).map .abnormalEnd := by
  induction log with
  | nil => rfl
  | cons notice log ih =>
    cases h : notice.abnormal? with
    | none => simp [Notice.warnsOf, h, ← ih]
    | some status =>
      obtain rfl := Notice.abnormal?_eq_some.1 h
      by_cases hpid : status.pid = pid
      · simp [Notice.warnsOf, h, hpid, ← ih]
      · simp [Notice.warnsOf, h, hpid, ← ih]

/-- The log of a trace warns as the calls of the trace do. -/
theorem filterMap_abnormal (es : List Event) :
    (es.filterMap (·.notice?)).filterMap Notice.abnormal?
      = es.filterMap fun e => e.action.abnormal? := by
  rw [List.filterMap_filterMap]
  congr 1
  funext e
  unfold Event.notice?
  cases e.action <;> rfl

/-- When only one process gives warnings of a kind, they are found among its own calls. -/
theorem filter_abnormal {line : List Event} {q : Caller} {wanted : ChildStatus → Bool}
    (only : ∀ e ∈ line, ∀ status, e.action.abnormal? = some status → wanted status →
      e.caller = q) :
    (line.filterMap fun e => e.action.abnormal?).filter wanted
      = ((callsOf q line).filterMap Action.abnormal?).filter wanted := by
  induction line with
  | nil => rfl
  | cons e line ih =>
    obtain ⟨he, hline⟩ := List.forall_mem_cons.1 only
    by_cases hcaller : e.caller = q
    · rw [callsOf_cons_self hcaller]
      cases h : e.action.abnormal? <;> simp [h, List.filter_cons, ih hline]
    · -- a call of another process gives no such warning
      rw [callsOf_cons_of_ne hcaller, ← ih hline]
      cases h : e.action.abnormal? with
      | none => simp [h]
      | some status =>
        have unwanted : ¬ wanted status := fun hwanted => hcaller (he status h hwanted)
        simp [h, unwanted]

/-- The shell itself warns of nothing. -/
theorem shell_warns_nothing (session : Session) (command : Command) (s : RehearsalStage) :
    (callsOf none (traceLine session command s)).filterMap Action.abnormal? = [] := by
  rcases execute_shell session command s with
    ⟨-, -, shell⟩ | ⟨e, -, shell⟩ | ⟨pid, e, -, shell⟩ | ⟨pid, status, -, shell⟩
  all_goals
    rw [shell]
    rfl

/-- A process that is started in a line warns as it has to. -/
theorem traceLine_warned (session : Session) (command : Command) (s : RehearsalStage) {q : Pid}
    (started : .fork q ∈ (traceLine session command s).filterMap (·.entry)) :
    Warned (callsOf (some q) (traceLine session command s)) := by
  obtain ⟨node, p, es, code, -, realizer, placed⟩ := traceLine_realizer session command s started
  obtain ⟨children, _, _, conduct, -⟩ := placed.children
  rw [placed.own]
  exact (conduct.warned realizer.warns).concat rfl rfl rfl

/-- A warning stands for a status that its process has heard. -/
theorem Warned.heard {own : List Action} (h : Warned own) {status : ChildStatus}
    (mem : status ∈ own.filterMap Action.abnormal?) : ∃ pid, .wait pid (.ok status) ∈ own := by
  rw [h, abnormalIn] at mem
  split at mem
  · cases mem
  · obtain ⟨a, ha, heard⟩ := List.mem_filterMap.1 (List.mem_filter.1 mem).1
    obtain ⟨pid, rfl⟩ := Action.heard?_eq_some.1 heard
    exact ⟨pid, ha⟩

/-- **Warnings.** `line` is the trace of the execution of a command, in any world, and `log` is what
it adds to the log.  When a process below the shell waits for a child and gets a status, that is of
the child, and the warnings of the end of that child in the log are one with this status if it is no
success, and none else; but there is none, either, if another wait of the same process fails. -/
theorem ends_warned (session : Session) (command : Command) (s : RehearsalStage) :
    let line := traceLine session command s
    let log := line.filterMap (·.notice?)
    (execute session command s).2.recorder.notices = s.recorder.notices ++ log ∧
      ∀ q pid status, .wait pid (.ok status) ∈ callsOf (some q) line →
        status.pid = pid ∧
          log.filter (Notice.warnsOf pid)
            = if (callsOf (some q) line).any Action.failsToWait || status.isSuccess then []
              else [.abnormalEnd status] := by
  intro line log
  refine ⟨(execute_follows session command s).notices, fun q pid status hwait => ?_⟩
  obtain ⟨w, hw, hcaller, haction⟩ := mem_callsOf.1 hwait
  obtain ⟨_, _, runs⟩ := traceLine_runs session command s
  obtain ⟨before, after, split⟩ := List.append_of_mem hw
  have nodup : (waitsOf line).Nodup :=
    (traceLine_tidy session command s).waits_nodup List.nodup_nil (by simp)
  have once : OnlyWait before w after pid status :=
    .of_nodup haction (split ▸ nodup) (split ▸ runs.pid_of_wait)
  have started : .fork q ∈ line.filterMap (·.entry) := by
    rcases runs.caller_started w hw with hnone | ⟨r, hr, started⟩
    · cases hnone.symm.trans hcaller
    · cases hr.symm.trans hcaller
      exact started
  have only : ∀ e ∈ line, ∀ st, e.action.abnormal? = some st → st.pid == pid →
      e.caller = w.caller := by
    intro e he st hst hp
    have mem : st ∈ (callsOf e.caller line).filterMap Action.abnormal? :=
      List.mem_filterMap.2 ⟨e.action, mem_callsOf.2 ⟨e, he, rfl, rfl⟩, hst⟩
    rcases runs.caller_started e he with hnone | ⟨r, hr, hstarted⟩
    · rw [hnone, shell_warns_nothing] at mem
      cases mem
    · -- its process has heard the status, and so it is the one that waited
      rw [hr] at mem ⊢
      obtain ⟨p, hheard⟩ := (traceLine_warned session command s hstarted).heard mem
      obtain ⟨e', he', hcaller', haction'⟩ := mem_callsOf.1 hheard
      rw [← hcaller', once.eq_of_heard (split ▸ he') haction' (by simpa using hp)]
  have heard : ((callsOf w.caller line).filterMap Action.heard?).filter (·.pid == pid)
      = [status] := split ▸ once.heard
  refine ⟨once.pid_eq, ?_⟩
  rw [hcaller] at only heard
  rw [filter_warnsOf, filterMap_abnormal, filter_abnormal only,
    traceLine_warned session command s started, abnormalIn]
  cases (callsOf (some q) line).any Action.failsToWait with
  | true => rfl
  | false =>
    rw [if_neg (by simp), List.filter_comm, heard]
    cases hs : status.isSuccess <;> simp [hs]

/-- A pipe whose left side fails and whose second wait fails: the log does not warn of the left
side. -/
theorem ends_lost :
    let world : World := { exitCodes := [("a", 1)], faults := [⟨.wait, 1, .echild⟩] }
    let start : RehearsalStage := ⟨{ world := world }, .empty⟩
    let session : Session := ⟨"/", .defaults⟩
    let line := traceLine session (.pipe (.exec ["a"]) (.exec ["b"])) start
    let log := line.filterMap (·.notice?)
    ¬ ∀ q pid status, .wait pid (.ok status) ∈ callsOf (some q) line →
      log.filter (Notice.warnsOf pid)
        = if status.isSuccess then [] else [.abnormalEnd status] := by
  intro world start session line log every
  have heard : (callsOf (some 100) line).filterMap Action.heard? = [.exited 101 1] := by
    decide +kernel
  have silent : log.filter (Notice.warnsOf 101) = [] := by decide +kernel
  obtain ⟨a, ha, hheard⟩ := List.mem_filterMap.1 (heard ▸ List.mem_singleton_self _)
  obtain ⟨pid, rfl⟩ := Action.heard?_eq_some.1 hheard
  obtain ⟨w, hw, -, haction⟩ := mem_callsOf.1 ha
  obtain ⟨_, _, runs⟩ := traceLine_runs session (.pipe (.exec ["a"]) (.exec ["b"])) start
  obtain rfl : 101 = pid := runs.pid_of_wait w hw pid _ haction
  have warned := every 100 101 _ ha
  rw [silent] at warned
  cases warned

end LineShell
