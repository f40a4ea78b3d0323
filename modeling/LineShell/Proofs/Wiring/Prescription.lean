import LineShell.Proofs.Wiring.Table

namespace LineShell

/-!
# What a command prescribes

A command prescribes the standard streams of all its programs: a pipe joins its two sides by a
pipe of its own, a redirect binds one stream to its file, all else is handed down.

* `Leaf`, `Wired` — the programs of a command with the streams that are prescribed for them.
* `Wires` — a trace launches nothing but what is prescribed.
-/

/-! ### What a command prescribes -/

/-- A program of a command with the streams that are prescribed for it. -/
structure Leaf where
  argv : List String
  input : Stream
  output : Stream

/-- The table and the words that a program is to be run with: those that the aliases make of its
own, without the blank ones. -/
def Leaf.launch (aliases : AliasTable) (leaf : Leaf) : Table × List String :=
  (.standard leaf.input leaf.output,
    (aliases.expand leaf.argv).filter fun word => !isAllSpaces word)

/-- A program is to be run with the words that a process starts it with. -/
theorem Leaf.launch_eq (aliases : AliasTable) (leaf : Leaf) :
    leaf.launch aliases = (.standard leaf.input leaf.output, launchWords aliases leaf.argv) :=
  rfl

/-- The programs of a command between an input and an output, from the left, where each pipe of
the command has the number that `pipes` gives for it. -/
inductive Wired : Command → Stream → Stream → (pipes : List Nat) → List Leaf → Prop where
  | exec {argv input output} : Wired (.exec argv) input output [] [⟨argv, input, output⟩]
  | pipe {l r input output k ps qs ls rs} (left : Wired l input (.writeEnd k) ps ls)
      (right : Wired r (.readEnd k) output qs rs) :
      Wired (.pipe l r) input output (k :: (ps ++ qs)) (ls ++ rs)
  | input {c path input output ps ls} (inner : Wired c (.file path .input) output ps ls) :
      Wired (.redirect c .input path) input output ps ls
  | output {c path input output ps ls} (inner : Wired c input (.file path .output) ps ls) :
      Wired (.redirect c .output path) input output ps ls

/-- A pipe of its own number between sides with different pipes. -/
theorem nodup_pipe {k : Nat} {ps qs : List Nat} (hp : ps.Nodup) (hq : qs.Nodup)
    (left : ∀ x ∈ ps, k ≠ x) (right : ∀ x ∈ qs, k ≠ x) (apart : ∀ x ∈ ps, ∀ y ∈ qs, x ≠ y) :
    (k :: (ps ++ qs)).Nodup := by
  refine List.nodup_cons.2 ⟨fun hk => ?_, List.nodup_append.2 ⟨hp, hq, apart⟩⟩
  rcases List.mem_append.1 hk with hk | hk
  · exact left k hk rfl
  · exact right k hk rfl

/-- The pipes of a command can have new numbers from `lo` on. -/
theorem exists_wired (command : Command) (input output : Stream) (lo : Nat) :
    ∃ hi pipes leaves, Wired command input output pipes leaves ∧ pipes.Nodup ∧ lo ≤ hi ∧
      ∀ k ∈ pipes, lo ≤ k ∧ k < hi := by
  induction command generalizing input output lo with
  | exec argv => exact ⟨lo, [], _, .exec, List.nodup_nil, Nat.le_refl _, by simp⟩
  | pipe l r ihl ihr =>
    -- the pipe itself gets the first number, then the left side gets its own, then the right side
    obtain ⟨mid, ps, ls, hl, nodupl, hmid, hps⟩ := ihl input (.writeEnd lo) (lo + 1)
    obtain ⟨hi, qs, rs, hr, nodupr, hhi, hqs⟩ := ihr (.readEnd lo) output mid
    refine ⟨hi, lo :: (ps ++ qs), ls ++ rs, .pipe hl hr, ?_, by omega, fun k hk => ?_⟩
    · apply nodup_pipe nodupl nodupr
      · intro x hx
        have := hps x hx; omega
      · intro x hx
        have := hqs x hx; omega
      · intro x hx y hy
        have := hps x hx
        have := hqs y hy
        omega
    · rcases List.mem_cons.1 hk with rfl | hk
      · omega
      rcases List.mem_append.1 hk with hk | hk
      · have := hps k hk; omega
      · have := hqs k hk; omega
  | redirect inner direction path ih =>
    cases direction with
    | input =>
      obtain ⟨hi, ps, ls, h, rest⟩ := ih (.file path .input) output lo
      exact ⟨hi, ps, ls, .input h, rest⟩
    | output =>
      obtain ⟨hi, ps, ls, h, rest⟩ := ih input (.file path .output) lo
      exact ⟨hi, ps, ls, .output h, rest⟩

/-! ### What a run launches -/

/-- A trace launches programs as the command prescribes, each at most once and from the left, with
new pipes.  Pipes that were not made have numbers from any `lo` on. -/
def Wires (aliases : AliasTable) (command : Command) (input output : Stream) (t : Tables)
    (es : List Event) : Prop :=
  ∀ lo, (t.after es).pipes ≤ lo → ∃ hi pipes leaves, Wired command input output pipes leaves ∧
    pipes.Nodup ∧ lo ≤ hi ∧
    (∀ k ∈ pipes, t.pipes ≤ k ∧ k < hi ∧ (k < (t.after es).pipes ∨ lo ≤ k)) ∧
    (t.launches es).Sublist (leaves.map (Leaf.launch aliases))

namespace Wires

variable {aliases : AliasTable} {command l r : Command} {input output : Stream} {t t₁ t₂ : Tables}
  {es es₁ es₂ : List Event}

/-- A trace that launches nothing launches nothing else. -/
theorem of_silent (command : Command) (input output : Stream) (t : Tables)
    (silent : t.launches es = []) : Wires aliases command input output t es := by
  intro lo hlo
  obtain ⟨hi, pipes, leaves, wired, nodup, hhi, hpipes⟩ := exists_wired command input output lo
  refine ⟨hi, pipes, leaves, wired, nodup, hhi, fun k hk => ?_, ?_⟩
  · have := t.pipes_le_after es
    have := hpipes k hk
    omega
  · rw [silent]
    exact List.nil_sublist _

/-- What goes before and behind a trace without launches makes at most pipes. -/
theorem mono (h : Wires aliases command input output t₁ es₁) (start : t.pipes ≤ t₁.pipes)
    (finish : (t₁.after es₁).pipes ≤ (t.after es).pipes)
    (launches : t.launches es = t₁.launches es₁) :
    Wires aliases command input output t es := by
  intro lo hlo
  obtain ⟨hi, pipes, leaves, wired, nodup, hhi, hpipes, sub⟩ := h lo (by omega)
  refine ⟨hi, pipes, leaves, wired, nodup, hhi, fun k hk => ?_, launches ▸ sub⟩
  have := hpipes k hk
  omega

/-- A redirect of standard input hands its file down. -/
theorem redirect_input {path : String} (h : Wires aliases command (.file path .input) output t es) :
    Wires aliases (.redirect command .input path) input output t es := by
  intro lo hlo
  obtain ⟨hi, pipes, leaves, wired, rest⟩ := h lo hlo
  exact ⟨hi, pipes, leaves, .input wired, rest⟩

/-- A redirect of standard output hands its file down. -/
theorem redirect_output {path : String} (h : Wires aliases command input (.file path .output) t es) :
    Wires aliases (.redirect command .output path) input output t es := by
  intro lo hlo
  obtain ⟨hi, pipes, leaves, wired, rest⟩ := h lo hlo
  exact ⟨hi, pipes, leaves, .output wired, rest⟩

/-- The two sides of a pipe, one behind the other, where `t.pipes` is the number of the pipe. -/
theorem pipe (left : Wires aliases l input (.writeEnd t.pipes) t₁ es₁)
    (right : Wires aliases r (.readEnd t.pipes) output t₂ es₂) (start : t.pipes < t₁.pipes)
    (between : (t₁.after es₁).pipes ≤ t₂.pipes) (finish : (t₂.after es₂).pipes ≤ (t.after es).pipes)
    (launches : t.launches es = t₁.launches es₁ ++ t₂.launches es₂) :
    Wires aliases (.pipe l r) input output t es := by
  intro lo hlo
  have hleft := t₁.pipes_le_after es₁
  have hright := t₂.pipes_le_after es₂
  obtain ⟨mid, ps, ls, hl, nodupl, hmid, hps, subl⟩ := left lo (by omega)
  -- The pipes of the right side that were not made get numbers beyond those of the left side.
  obtain ⟨hi, qs, rs, hr, nodupr, hhi, hqs, subr⟩ := right mid (by omega)
  refine ⟨hi, t.pipes :: (ps ++ qs), ls ++ rs, .pipe hl hr, ?_, by omega, fun k hk => ?_, ?_⟩
  · apply nodup_pipe nodupl nodupr
    · intro x hx
      have := hps x hx; omega
    · intro x hx
      have := hqs x hx; omega
    · intro x hx y hy
      have := hps x hx
      have := hqs y hy
      omega
  · rcases List.mem_cons.1 hk with rfl | hk
    · omega
    rcases List.mem_append.1 hk with hk | hk
    · have := hps k hk; omega
    · have := hqs k hk; omega
  · rw [launches, List.map_append]
    exact subl.append subr

end Wires

end LineShell
