namespace LineShell

/-!
# Loops, round by round

A loop that works on indices is given by the body of one round.  The body is partial: it has no
value where it would use an index that names no place, so a loop goes well only as long as its body
has one.

* `Round` — what a round comes to.
* `Stops` — a loop that comes to an end.
* `Reaches` — the states at the beginning of its rounds.
* `Proceeds` — a round that goes well.
* `GoesWell` — a loop that uses no index out of place, gets further in each round and ends.
* `GoesWell.of_rounds` — it is enough to look at one round.
-/

/-- What a round of a loop comes to: another round or the result. -/
inductive Round (σ ρ : Type) where
  | again (s : σ)
  | stop (result : ρ)

variable {σ ρ : Type}

/-- The loop, begun in a state, comes to an end with a result. -/
inductive Stops (body : σ → Option (Round σ ρ)) : σ → ρ → Prop where
  | stop {s : σ} {result : ρ} : body s = some (.stop result) → Stops body s result
  | again {s s' : σ} {result : ρ} :
      body s = some (.again s') → Stops body s' result → Stops body s result

/-- The loop, begun in a state, comes to another one. -/
inductive Reaches (body : σ → Option (Round σ ρ)) (start : σ) : σ → Prop where
  | start : Reaches body start start
  | again {s s' : σ} : Reaches body start s → body s = some (.again s') → Reaches body start s'

/-- A round has a value: the result, or another round from a sound state that is further. -/
def Proceeds (body : σ → Option (Round σ ρ)) (sound : σ → Prop) (further : σ → σ → Prop)
    (result : ρ) (s : σ) : Prop :=
  body s = some (.stop result) ∨ ∃ s', body s = some (.again s') ∧ sound s' ∧ further s s'

/-- The loop, begun in a state, ends with a result.  Until then its indices stand in place, every
round has a value, and each goes further than the one before. -/
structure GoesWell (body : σ → Option (Round σ ρ)) (placed : σ → Prop) (further : σ → σ → Prop)
    (start : σ) (result : ρ) : Prop where
  stops : Stops body start result
  placed : ∀ s, Reaches body start s → placed s
  defined : ∀ s, Reaches body start s → ∃ round, body s = some round
  further : ∀ s s', Reaches body start s → body s = some (.again s') → further s s'

section Rounds

variable {body : σ → Option (Round σ ρ)} {start : σ} {result : ρ} {sound placed : σ → Prop}
  {further : σ → σ → Prop}

/-- What holds at the start and is kept by every round holds of all that is reached. -/
theorem Reaches.holds {s : σ} (reached : Reaches body start s) (init : sound start)
    (keeps : ∀ s s', sound s → body s = some (.again s') → sound s') : sound s := by
  induction reached with
  | start => exact init
  | again _ round ih => exact keeps _ _ ih round

/-- A loop ends when each round leaves less to do. -/
theorem Stops.of_decreasing (left : σ → Nat) (init : sound start)
    (round : ∀ s, sound s → body s = some (.stop result) ∨
      ∃ s', body s = some (.again s') ∧ sound s' ∧ left s' < left s) :
    Stops body start result := by
  -- the induction is on what is left to do
  generalize hleft : left start = n
  induction n using Nat.strongRecOn generalizing start with
  | ind n ih =>
    subst hleft
    rcases round start init with stop | ⟨s', again, hs', less⟩
    · exact .stop stop
    · exact .again again (ih _ less hs' rfl)

/-- A loop goes well when each of its rounds does. -/
theorem GoesWell.of_rounds (left : σ → Nat) (init : sound start) (hplaced : ∀ s, sound s → placed s)
    (round : ∀ s, sound s → Proceeds body sound further result s)
    (less : ∀ s s', sound s' → further s s' → left s' < left s) :
    GoesWell body placed further start result := by
  have keeps : ∀ s s', sound s → body s = some (.again s') → sound s' ∧ further s s' := by
    intro s s' hs again
    rcases round s hs with stop | ⟨s'', again', hs'', hfurther⟩
    · rw [stop] at again
      cases again
    · rw [again'] at again
      cases again
      exact ⟨hs'', hfurther⟩
  have reached : ∀ s, Reaches body start s → sound s := fun s h =>
    h.holds init fun s s' hs again => (keeps s s' hs again).1
  refine ⟨Stops.of_decreasing left init fun s hs => ?_, fun s h => hplaced s (reached s h),
    fun s h => ?_, fun s s' h again => (keeps s s' (reached s h) again).2⟩
  · rcases round s hs with stop | ⟨s', again, hs', hfurther⟩
    · exact .inl stop
    · exact .inr ⟨s', again, hs', less s s' hs' hfurther⟩
  · rcases round s (reached s h) with stop | ⟨s', again, -⟩
    · exact ⟨_, stop⟩
    · exact ⟨_, again⟩

end Rounds

end LineShell
