import LineShell.Proofs.Rendering.Words

namespace LineShell

/-!
# Commands read back from their text

Lines describe the canonical commands and no others, and every canonical command is what its own
text describes.

* `canonical_of_ofLine` — what a line describes is canonical.
* `Command.Stage.reads`, `Command.Pipeline.reads` — a rendered command is read back.
* `canonical_iff_read` — both, with what follows from them.
-/

/-! ### What lines describe -/

/-- Redirects with files over a stage make a stage. -/
theorem stage_foldl_redirect {c : Command} (h : c.Stage) {redirects : List (Direction × List Char)}
    (targets : ∀ r ∈ redirects, unquote (stripEnds isBlank r.2) ≠ []) :
    (redirects.foldl
      (fun c r => Command.redirect c r.1 (String.ofList (unquote (stripEnds isBlank r.2))))
      c).Stage := by
  induction redirects generalizing c with
  | nil => exact h
  | cons r rs ih =>
    obtain ⟨hr, hrs⟩ := List.forall_mem_cons.1 targets
    exact ih (.redirect h (unquote_sayable hr)) hrs

/-- A complete segment describes a stage. -/
theorem Segment.Complete.stage {s : Segment} (h : s.Complete) : s.command.Stage := by
  obtain ⟨program, arguments, hwords⟩ := h.named
  refine stage_foldl_redirect (.exec ?_ ?_) h.targets
  · rw [s.argv_eq hwords]
    exact List.cons_ne_nil _ _
  · rw [s.argv_eq hwords]
    exact words_sayable hwords

/-- Complete segments describe a pipeline. -/
theorem pipeline_of_complete {segments : List Segment} (hne : segments ≠ [])
    (h : ∀ s ∈ segments, s.Complete) : (pipeline (segments.map Segment.command)).Pipeline := by
  induction segments with
  | nil => exact absurd rfl hne
  | cons s segments ih =>
    obtain ⟨hs, hsegments⟩ := List.forall_mem_cons.1 h
    by_cases hnil : segments = []
    · subst hnil
      exact .stage hs.stage
    · rw [List.map_cons, pipeline_cons _ (mt List.map_eq_nil_iff.1 hnil)]
      exact .pipe hs.stage (ih hnil hsegments)

/-- What a line describes is canonical. -/
theorem canonical_of_ofLine {line : String} {t : Command} (h : Command.ofLine line = .ok t) :
    t.Canonical := by
  obtain ⟨-, ⟨-, argv, hwords, rfl⟩ | ⟨-, complete, rfl⟩⟩ := (ofLine_iff line t).1 h
  · cases argv with
    | nil => exact .inl rfl
    | cons program arguments =>
      exact .inr (.stage (.exec (List.cons_ne_nil _ _) (words_sayable hwords)))
  · exact .inr (pipeline_of_complete (segmentsFrom_ne_nil _ _) complete)

/-! ### What is read back -/

/-- Blanks hold no operator and open no quote. -/
theorem passes_of_blank {xs : List Char} (h : ∀ c ∈ xs, isBlank c = true) : Passes xs := by
  refine passes_of_plain fun c hc => ⟨?_, ne_quoteMark_of_isBlank (h c hc)⟩
  cases hop : operator? c with
  | none => rfl
  | some op =>
    have hblank := h c hc
    rw [eq_symbol_of_operator? hop] at hblank
    rcases op with _ | _ | _ <;> exact absurd hblank (by decide)

theorem readFrom_space (part : Part) (text : List Char) (column : Nat) (cs : List Char) :
    Command.readFrom part text none column (' ' :: cs)
      = Command.readFrom part (' ' :: text) none (column + 1) cs := rfl

namespace Command

variable {c : Command} {lead : List Char}

/-- Reading a rendered stage leaves a part that is finished as the stage, at whatever stands behind
it. -/
theorem Stage.reads (h : c.Stage) (hlead : ∀ x ∈ lead, isBlank x = true) (column : Nat) :
    ∃ part text,
      (∀ rest, ∃ column', readFrom .program [] none column (lead ++ (c.render.toList ++ rest))
        = readFrom part text none column' rest) ∧
      ∀ tail, (∀ x ∈ tail, isBlank x = true) →
        ∀ op, part.finish (text.reverse ++ tail) op = .ok c := by
  -- What stands behind is not known yet: the part is left as it is before the last blanks.
  induction h with
  | @exec argv named hwords =>
    have hpasses := (passes_of_blank hlead).append (exec_render_passes hwords)
    refine ⟨.program, (lead ++ (Command.exec argv).render.toList).reverse ++ [], fun rest => ?_,
      fun tail htail op => ?_⟩
    · rw [← List.append_assoc]
      exact hpasses .program [] column rest
    · refine program_finish_iff.2 ⟨argv, ?_, fun _ => named, rfl⟩
      rw [List.append_nil, List.reverse_reverse, List.append_assoc]
      exact words_render hwords hlead htail
  | @redirect c direction path inner hpath ih =>
    obtain ⟨part, text, hread, hfinish⟩ := ih
    have hspace : ∀ x ∈ [' '], isBlank x = true := List.forall_mem_singleton.2 rfl
    have hpasses := (passes_of_blank hspace).append (renderWord_passes hpath)
    refine ⟨.target c direction, ([' '] ++ (renderWord path).toList).reverse ++ [], fun rest => ?_,
      fun tail htail op => ?_⟩
    · -- the operator finishes the part before it as the inner stage
      have hsplit : (Command.redirect c direction path).render.toList ++ rest = c.render.toList ++
          (' ' :: direction.symbol :: ([' '] ++ (renderWord path).toList ++ rest)) := by
        simp [render, Direction.text]
      obtain ⟨k, hk⟩ :=
        hread (' ' :: direction.symbol :: ([' '] ++ (renderWord path).toList ++ rest))
      obtain ⟨m, hm⟩ := hpasses (.target c direction) [] (k + 1 + 1) rest
      refine ⟨m, ?_⟩
      have hdone : part.finish (' ' :: text).reverse (some (.redirect direction)) = .ok c := by
        rw [List.reverse_cons]
        exact hfinish [' '] hspace _
      rw [hsplit, hk, readFrom_space, readFrom_redirect, hdone, ← hm]
      rfl
    · refine target_finish_iff.2 ?_
      rw [List.append_nil, List.reverse_reverse, List.append_assoc,
        path_render hpath hspace htail, String.ofList_toList]
      exact ⟨hpath.1, rfl⟩

/-- No pipeline is the empty command. -/
theorem Pipeline.isEmpty (h : c.Pipeline) : c.isEmpty = false := by
  cases h with
  | stage h =>
    cases h with
    | exec named => simpa using named
    | redirect => rfl
  | pipe => rfl

/-- A rendered pipeline is read back. -/
theorem Pipeline.reads (h : c.Pipeline) (hlead : ∀ x ∈ lead, isBlank x = true) (column : Nat) :
    readFrom .program [] none column (lead ++ c.render.toList) = .ok c := by
  induction h generalizing lead column with
  | @stage c h =>
    obtain ⟨part, text, hread, hfinish⟩ := h.reads hlead column
    obtain ⟨k, hk⟩ := hread []
    rw [List.append_nil] at hk
    rw [hk]
    show part.finish text.reverse none = .ok c
    rw [← List.append_nil text.reverse]
    exact hfinish [] (by simp) none
  | @pipe l r left right ih =>
    obtain ⟨part, text, hread, hfinish⟩ := left.reads hlead column
    obtain ⟨k, hk⟩ := hread (' ' :: '|' :: ([' '] ++ r.render.toList))
    have hspace : ∀ x ∈ [' '], isBlank x = true := List.forall_mem_singleton.2 rfl
    have hsplit : (Command.pipe l r).render.toList
        = l.render.toList ++ (' ' :: '|' :: ([' '] ++ r.render.toList)) := by
      simp [render]
    -- the pipe finishes its left side, and the right side is read from a space on
    have hdone : part.finish (' ' :: text).reverse (some .pipe) = .ok l := by
      rw [List.reverse_cons]
      exact hfinish [' '] hspace _
    rw [hsplit, hk, readFrom_space, readFrom_pipe, hdone]
    show (readFrom .program [] none (k + 1 + 1) ([' '] ++ r.render.toList)).bind (pipeTo l) = _
    rw [ih hspace]
    exact pipeTo_iff.2 ⟨right.isEmpty, rfl⟩

/-- A rendered canonical command is read back. -/
theorem Canonical.reads (h : c.Canonical) : ofLine c.render = .ok c := by
  rcases h with rfl | h
  · rfl
  · have hlead : ∀ x ∈ ([] : List Char), isBlank x = true := by simp
    exact h.reads hlead 0

end Command

/-- **Round trip.** The commands that lines describe are the canonical ones, and the text of a
canonical command describes it, whatever characters its words and paths hold.  So the text of what
a line describes describes the same. -/
theorem canonical_iff_read :
    (∀ line t, Command.ofLine line = .ok t → t.Canonical) ∧
      (∀ t : Command, t.Canonical → Command.ofLine t.render = .ok t) ∧
      (∀ t : Command, (∃ line, Command.ofLine line = .ok t) ↔ t.Canonical) ∧
      ∀ line t, Command.ofLine line = .ok t → Command.ofLine t.render = .ok t := by
  refine ⟨fun line t => canonical_of_ofLine, fun t => Command.Canonical.reads,
    fun t => ⟨?_, ?_⟩, ?_⟩
  · rintro ⟨line, h⟩
    exact canonical_of_ofLine h
  · exact fun h => ⟨t.render, h.reads⟩
  · exact fun line t h => (canonical_of_ofLine h).reads

end LineShell
