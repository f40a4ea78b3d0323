import LineShell.Proofs.Reading.Words

namespace LineShell

/-!
# What a line describes

The pieces of a line make up segments, one for each part of a pipeline.  A line describes a command
when its quotes are paired and each segment is complete, and the command shows from the segments.

* `Segment` — the text of a program and the redirects over it.
* `Segment.Complete`, `Segment.command` — segments that hold a command, and that command.
* `segmentsFrom`, `pipeline` — the segments of a line, and their commands joined.
* `ofLine_spec` — the lines that describe a command, and which one.
-/

/-- A part of a pipeline: the text of a program, and each redirect with the text that names its
file. -/
structure Segment where
  head : List Char
  redirects : List (Direction × List Char)

namespace Segment

/-- The program has a name, and each redirect has a file. -/
structure Complete (s : Segment) : Prop where
  named : ∃ program arguments, words s.head = .ok (program :: arguments)
  targets : ∀ r ∈ s.redirects, unquote (stripEnds isBlank r.2) ≠ []

/-- The words of the program. -/
def argv (s : Segment) : List String :=
  match words s.head with
  | .ok argv => argv
  | .error _ => []

/-- The program under its redirects, the later ones outside.  The file of a redirect is its text
without the blanks at its ends and without quotes. -/
def command (s : Segment) : Command :=
  s.redirects.foldl
    (fun c r => .redirect c r.1 (String.ofList (unquote (stripEnds isBlank r.2)))) (.exec s.argv)

/-- The segment with one more redirect. -/
def add (s : Segment) (direction : Direction) (text : List Char) : Segment :=
  { s with redirects := s.redirects ++ [(direction, text)] }

end Segment

/-- The segments of a line, where `s` is what was read of the current one. -/
def segmentsFrom (s : Segment) : List (Operator × List Char) → List Segment
  | [] => [s]
  | (.redirect direction, text) :: pieces => segmentsFrom (s.add direction text) pieces
  | (.pipe, text) :: pieces => s :: segmentsFrom ⟨text, []⟩ pieces

/-- The segments of a line. -/
def segmentsOf (line : String) : List Segment :=
  segmentsFrom ⟨(cutFrom 0 line.toList).1, []⟩ (cutFrom 0 line.toList).2

/-- Commands joined by pipes that nest to the right. -/
def pipeline : List Command → Command
  | [] => .exec []
  | [c] => c
  | c :: c' :: cs => .pipe c (pipeline (c' :: cs))

/-! ### Parts that are finished -/

/-- The text of a program gives a command when its words can be told and, before an operator, when
there are some. -/
theorem program_finish_iff {text : List Char} {op : Option Operator} {c : Command} :
    Part.program.finish text op = .ok c ↔
      ∃ argv, words text = .ok argv ∧ (op ≠ none → argv ≠ []) ∧ c = .exec argv := by
  show (words text).bind _ = .ok c ↔ _
  cases words text with
  | error e => simp [Except.bind]
  | ok argv =>
    cases op with
    | none => simp [Except.bind, eq_comm]
    | some op => cases argv <;> simp [Except.bind, eq_comm]

/-- The text behind a redirect gives a command when something is left of it as the name of a file.
-/
theorem target_finish_iff {inner : Command} {direction : Direction} {text : List Char}
    {op : Option Operator} {c : Command} :
    (Part.target inner direction).finish text op = .ok c ↔
      unquote (stripEnds isBlank text) ≠ [] ∧
        c = .redirect inner direction (String.ofList (unquote (stripEnds isBlank text))) := by
  rw [Part.finish, redirectTarget_eq]
  by_cases h : unquote (stripEnds isBlank text) = []
  · simp [h]
  · have hne : (unquote (stripEnds isBlank text)).isEmpty = false := by simpa using h
    simp only [hne, Bool.false_eq_true, if_false, Except.ok.injEq, ne_eq, h, not_false_eq_true,
      true_and]
    exact eq_comm

/-! ### One segment -/

namespace Segment

/-- The words of a segment are those of its text, if that has words. -/
theorem argv_eq {s : Segment} {argv : List String} (h : words s.head = .ok argv) :
    s.argv = argv := by
  rw [Segment.argv, h]

/-- A redirect that is added wraps the command. -/
theorem command_add (s : Segment) (direction : Direction) (text : List Char) :
    (s.add direction text).command
      = .redirect s.command direction (String.ofList (unquote (stripEnds isBlank text))) := by
  rw [command, add, List.foldl_append]
  rfl

/-- A redirect that is added needs a file. -/
theorem complete_add_iff {s : Segment} {direction : Direction} {text : List Char} :
    (s.add direction text).Complete ↔ s.Complete ∧ unquote (stripEnds isBlank text) ≠ [] := by
  constructor
  · intro h
    refine ⟨⟨h.named, fun r hr => h.targets r (List.mem_append_left _ hr)⟩, ?_⟩
    exact h.targets (direction, text) (List.mem_append_right _ List.mem_cons_self)
  · rintro ⟨h, htarget⟩
    refine ⟨h.named, fun r hr => ?_⟩
    rcases List.mem_append.1 hr with hr | hr
    · exact h.targets r hr
    · rw [List.mem_singleton.1 hr]
      exact htarget

/-- Redirects over a command that is not empty make none that is. -/
theorem isEmpty_foldl_redirect {c : Command} (h : c.isEmpty = false)
    (redirects : List (Direction × List Char)) :
    (redirects.foldl
      (fun c r => Command.redirect c r.1 (String.ofList (unquote (stripEnds isBlank r.2))))
      c).isEmpty = false := by
  induction redirects generalizing c with
  | nil => exact h
  | cons r rs ih => exact ih (Command.isEmpty_redirect _ _ _)

/-- A complete segment holds a program with a name. -/
theorem Complete.command_isEmpty {s : Segment} (h : s.Complete) : s.command.isEmpty = false := by
  obtain ⟨program, arguments, hwords⟩ := h.named
  apply isEmpty_foldl_redirect
  rw [argv_eq hwords]
  rfl

/-- The segment of a line that is being read, with the part that its last text is for. -/
inductive Pending : Segment → Part → List Char → Prop where
  | head {text : List Char} : Pending ⟨text, []⟩ .program text
  | target {s : Segment} {direction : Direction} {text : List Char} (complete : s.Complete) :
      Pending (s.add direction text) (.target s.command direction) text

variable {s : Segment} {part : Part} {text : List Char}

/-- At an operator a part is finished when its segment is complete. -/
theorem Pending.finish_some (h : s.Pending part text) {op : Operator} {c : Command} :
    part.finish text (some op) = .ok c ↔ s.Complete ∧ c = s.command := by
  cases h with
  | head =>
    rw [program_finish_iff]
    constructor
    · rintro ⟨argv, hwords, hnamed, rfl⟩
      obtain ⟨program, arguments, rfl⟩ := List.exists_cons_of_ne_nil (hnamed (by simp))
      exact ⟨⟨⟨program, arguments, hwords⟩, by simp⟩, congrArg Command.exec (argv_eq hwords).symm⟩
    · rintro ⟨⟨⟨program, arguments, hwords⟩, -⟩, rfl⟩
      exact ⟨_, hwords, by simp, congrArg Command.exec (argv_eq hwords)⟩
  | target complete =>
    rw [target_finish_iff, complete_add_iff, command_add]
    exact and_congr_left fun _ => (and_iff_right complete).symm

/-- At the end of a line there may also be nothing. -/
theorem Pending.finish_none (h : s.Pending part text) {c : Command} :
    part.finish text none = .ok c ↔
      (s.Complete ∨ (s.redirects = [] ∧ words s.head = .ok [])) ∧ c = s.command := by
  cases h with
  | head =>
    rw [program_finish_iff]
    constructor
    · rintro ⟨argv, hwords, -, rfl⟩
      refine ⟨?_, congrArg Command.exec (argv_eq hwords).symm⟩
      -- without a name it is a blank line, which needs no segment to be complete
      cases argv with
      | nil => exact .inr ⟨rfl, hwords⟩
      | cons program arguments => exact .inl ⟨⟨program, arguments, hwords⟩, by simp⟩
    · rintro ⟨⟨⟨program, arguments, hwords⟩, -⟩ | ⟨-, hwords⟩, rfl⟩
      · exact ⟨_, hwords, by simp, congrArg Command.exec (argv_eq hwords)⟩
      · exact ⟨_, hwords, by simp, congrArg Command.exec (argv_eq hwords)⟩
  | @target s direction text complete =>
    have hredirects : (s.add direction text).redirects ≠ [] := by simp [add]
    rw [target_finish_iff, complete_add_iff, command_add]
    constructor
    · rintro ⟨htarget, rfl⟩
      exact ⟨.inl ⟨complete, htarget⟩, rfl⟩
    · rintro ⟨⟨-, htarget⟩ | ⟨hnil, -⟩, rfl⟩
      · exact ⟨htarget, rfl⟩
      · exact absurd hnil hredirects

end Segment

/-! ### All segments -/

/-- Every line has a segment. -/
theorem segmentsFrom_ne_nil (s : Segment) (pieces : List (Operator × List Char)) :
    segmentsFrom s pieces ≠ [] := by
  induction pieces generalizing s with
  | nil => exact List.cons_ne_nil _ _
  | cons piece pieces ih =>
    rcases piece with ⟨_ | direction, text⟩
    · exact List.cons_ne_nil _ _
    · exact ih _

/-- What was read of a segment is complete when the segment is. -/
theorem Segment.Complete.of_segmentsFrom {s : Segment} {pieces : List (Operator × List Char)}
    (h : ∀ x ∈ segmentsFrom s pieces, x.Complete) : s.Complete := by
  induction pieces generalizing s with
  | nil => exact h s List.mem_cons_self
  | cons piece pieces ih =>
    rcases piece with ⟨_ | direction, text⟩
    · exact h s List.mem_cons_self
    · exact (Segment.complete_add_iff.1 (ih h)).1

/-- One more command on the left is joined by a pipe. -/
theorem pipeline_cons (c : Command) {cs : List Command} (h : cs ≠ []) :
    pipeline (c :: cs) = .pipe c (pipeline cs) := by
  cases cs with
  | nil => exact absurd rfl h
  | cons => rfl

/-- Complete segments describe a command that is not empty. -/
theorem pipeline_isEmpty {segments : List Segment} (hne : segments ≠ [])
    (h : ∀ s ∈ segments, s.Complete) :
    (pipeline (segments.map Segment.command)).isEmpty = false := by
  cases segments with
  | nil => exact absurd rfl hne
  | cons s segments =>
    cases segments with
    | nil => exact (h s List.mem_cons_self).command_isEmpty
    | cons => rfl

/-- A pipe leads to any command but the empty one. -/
theorem pipeTo_iff {left right c : Command} :
    pipeTo left right = .ok c ↔ right.isEmpty = false ∧ c = .pipe left right := by
  unfold pipeTo
  cases right.isEmpty with
  | true => simp
  | false =>
    simp only [Bool.false_eq_true, if_false, Except.ok.injEq, true_and]
    exact eq_comm

/-- Two steps of a reading succeed when the first does and the second does with its result. -/
theorem bind_eq_ok_iff {ε α β : Type} {x : Except ε α} {f : α → Except ε β} {b : β} :
    x.bind f = .ok b ↔ ∃ a, x = .ok a ∧ f a = .ok b := by
  cases x <;> simp [Except.bind]

/-- **Pieces.** Reading the pieces of a line gives a command when all its segments are complete, or
when there is nothing to be read. -/
theorem readPieces_iff {s : Segment} {part : Part} {text : List Char} (h : s.Pending part text)
    (pieces : List (Operator × List Char)) {t : Command} :
    readPieces none part text pieces = .ok t ↔
      (pieces = [] ∧ s.redirects = [] ∧ words s.head = .ok [] ∧ t = .exec []) ∨
        ((∀ x ∈ segmentsFrom s pieces, x.Complete) ∧
          t = pipeline ((segmentsFrom s pieces).map Segment.command)) := by
  induction pieces generalizing s part text t with
  | nil =>
    rw [readPieces, h.finish_none]
    -- with nothing to be read the command of the segment is the empty one
    have hempty : s.redirects = [] → words s.head = .ok [] → s.command = .exec [] := by
      intro hredirects hwords
      rw [Segment.command, hredirects, Segment.argv_eq hwords]
      rfl
    constructor
    · rintro ⟨complete | ⟨hredirects, hwords⟩, rfl⟩
      · exact .inr ⟨by simpa [segmentsFrom] using complete, rfl⟩
      · exact .inl ⟨rfl, hredirects, hwords, hempty hredirects hwords⟩
    · rintro (⟨-, hredirects, hwords, rfl⟩ | ⟨complete, rfl⟩)
      · exact ⟨.inr ⟨hredirects, hwords⟩, (hempty hredirects hwords).symm⟩
      · exact ⟨.inl (complete s List.mem_cons_self), rfl⟩
  | cons piece pieces ih =>
    rcases piece with ⟨_ | direction, next⟩
    · -- a pipe: the segment ends
      show (part.finish text (some .pipe)).bind (fun left =>
        (readPieces none .program next pieces).bind (pipeTo left)) = .ok t ↔ _
      have hne : (segmentsFrom ⟨next, []⟩ pieces).map Segment.command ≠ [] :=
        mt List.map_eq_nil_iff.1 (segmentsFrom_ne_nil _ _)
      simp only [bind_eq_ok_iff, h.finish_some, pipeTo_iff, segmentsFrom, List.map_cons,
        pipeline_cons s.command hne]
      constructor
      · rintro ⟨left, ⟨complete, rfl⟩, right, hread, hright, rfl⟩
        rcases (ih .head).1 hread with ⟨-, -, -, rfl⟩ | ⟨hsegments, rfl⟩
        · cases hright
        · exact .inr ⟨List.forall_mem_cons.2 ⟨complete, hsegments⟩, rfl⟩
      · rintro (⟨hnil, -⟩ | ⟨hsegments, rfl⟩)
        · cases hnil
        · obtain ⟨complete, hsegments⟩ := List.forall_mem_cons.1 hsegments
          exact ⟨_, ⟨complete, rfl⟩, _, (ih .head).2 (.inr ⟨hsegments, rfl⟩),
            pipeline_isEmpty (segmentsFrom_ne_nil _ _) hsegments, rfl⟩
    · -- a redirect: the segment goes on, and all of it is complete only if this part is
      show (part.finish text (some (.redirect direction))).bind (fun built =>
        readPieces none (.target built direction) next pieces) = .ok t ↔ _
      have hredirects : (s.add direction next).redirects ≠ [] := by simp [Segment.add]
      simp only [bind_eq_ok_iff, h.finish_some, segmentsFrom]
      constructor
      · rintro ⟨built, ⟨complete, rfl⟩, hread⟩
        rcases (ih (.target complete)).1 hread with ⟨-, hnil, -⟩ | hsegments
        · exact absurd hnil hredirects
        · exact .inr hsegments
      · rintro (⟨hnil, -⟩ | ⟨hsegments, rfl⟩)
        · cases hnil
        · have complete := (Segment.complete_add_iff.1 (.of_segmentsFrom hsegments)).1
          exact ⟨_, ⟨complete, rfl⟩, (ih (.target complete)).2 (.inr ⟨hsegments, rfl⟩)⟩

/-- With an open quote no pieces give a command. -/
theorem readPieces_open (q : Nat) (part : Part) (text : List Char)
    (pieces : List (Operator × List Char)) (t : Command) :
    readPieces (some q) part text pieces ≠ .ok t := by
  induction pieces generalizing part text t with
  | nil =>
    intro h
    cases h
  | cons piece pieces ih =>
    rcases piece with ⟨_ | direction, next⟩
    · intro h
      obtain ⟨left, -, h⟩ := bind_eq_ok_iff.1 h
      obtain ⟨right, h, -⟩ := bind_eq_ok_iff.1 h
      exact ih _ _ _ h
    · intro h
      obtain ⟨built, -, h⟩ := bind_eq_ok_iff.1 h
      exact ih _ _ _ h

/-! ### Lines -/

/-- The commands that a line describes: the program of its words when it has no structural
operator, and else the pipeline of its segments. -/
theorem ofLine_iff (line : String) (t : Command) :
    Command.ofLine line = .ok t ↔
      openQuote none 0 line.toList = none ∧
        (((cutFrom 0 line.toList).2 = [] ∧ ∃ argv, words line.toList = .ok argv ∧ t = .exec argv) ∨
          ((cutFrom 0 line.toList).2 ≠ [] ∧ (∀ s ∈ segmentsOf line, s.Complete) ∧
            t = pipeline ((segmentsOf line).map Segment.command))) := by
  have hstart : (none : Option Nat) = none ↔ Even 0 := by simp
  have hread : Command.ofLine line = readPieces (openQuote none 0 line.toList) .program
      (cutFrom 0 line.toList).1 (cutFrom 0 line.toList).2 :=
    readFrom_eq_readPieces .program [] hstart 0 line.toList
  rw [hread]
  cases openQuote none 0 line.toList with
  | some q =>
    have hopen := readPieces_open q .program (cutFrom 0 line.toList).1 (cutFrom 0 line.toList).2 t
    simp [hopen]
  | none =>
    by_cases hnil : (cutFrom 0 line.toList).2 = []
    · -- the whole line is the text of one program, which may be without a name
      have hwhole : (cutFrom 0 line.toList).1 = line.toList := by
        have hjoin := join_cutFrom 0 line.toList
        rwa [hnil, List.flatMap_nil, List.append_nil] at hjoin
      rw [hnil, readPieces, program_finish_iff, hwhole]
      simp
    · rw [readPieces_iff .head]
      simp only [hnil, false_and, false_or, true_and, ne_eq, not_false_eq_true]
      rfl

/-- **Lines.** A line describes a command exactly when its quotes are paired and it has no
structural operator, or all its segments are complete: the program of each has a name and each
redirect a file.  Without a structural operator the command is the program of the words of the
line; else it is the pipeline of the segments, each a program under its redirects, the later ones
outside. -/
theorem ofLine_spec (line : String) :
    line.toList = (cutFrom 0 line.toList).1
        ++ (cutFrom 0 line.toList).2.flatMap (fun p => p.1.symbol :: p.2) ∧
      ((∃ t, Command.ofLine line = .ok t) ↔
        Even (line.toList.count quoteMark) ∧
          ((cutFrom 0 line.toList).2 = [] ∨ ∀ s ∈ segmentsOf line, s.Complete)) ∧
      ∀ t, Command.ofLine line = .ok t →
        ((cutFrom 0 line.toList).2 = [] → ∃ argv, words line.toList = .ok argv ∧ t = .exec argv) ∧
          ((cutFrom 0 line.toList).2 ≠ [] →
            t = pipeline ((segmentsOf line).map Segment.command)) := by
  have hstart : (none : Option Nat) = none ↔ Even 0 := by simp
  have heven := openQuote_eq_none_iff hstart 0 line.toList
  rw [Nat.zero_add] at heven
  refine ⟨(join_cutFrom 0 line.toList).symm, ⟨?_, ?_⟩, ?_⟩
  · rintro ⟨t, ht⟩
    obtain ⟨hopen, ⟨hnil, -⟩ | ⟨-, complete, -⟩⟩ := (ofLine_iff line t).1 ht
    · exact ⟨heven.1 hopen, .inl hnil⟩
    · exact ⟨heven.1 hopen, .inr complete⟩
  · rintro ⟨hquotes, hpieces⟩
    have hopen := heven.2 hquotes
    by_cases hnil : (cutFrom 0 line.toList).2 = []
    · obtain ⟨argv, hargv⟩ := exists_words hopen
      exact ⟨_, (ofLine_iff line _).2 ⟨hopen, .inl ⟨hnil, argv, hargv, rfl⟩⟩⟩
    · have complete := hpieces.resolve_left hnil
      exact ⟨_, (ofLine_iff line _).2 ⟨hopen, .inr ⟨hnil, complete, rfl⟩⟩⟩
  · intro t ht
    obtain ⟨-, ⟨hnil, hprogram⟩ | ⟨hne, -, hpipeline⟩⟩ := (ofLine_iff line t).1 ht
    · exact ⟨fun _ => hprogram, fun hne => absurd hnil hne⟩
    · exact ⟨fun hnil => absurd hnil hne, fun _ => hpipeline⟩

/-- Quoted operators cut nothing, and the redirects of a program nest. -/
example : Command.ofLine "a \"|\" <x > \"y z\"|b" = .ok (.pipe
    (.redirect (.redirect (.exec ["a", "|"]) .input "x") .output "y z") (.exec ["b"])) := by
  rfl

end LineShell
