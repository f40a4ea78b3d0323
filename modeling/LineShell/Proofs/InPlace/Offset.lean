import LineShell.Text.Offset

namespace LineShell

/-!
# Byte offsets of places

A byte offset names a place in a text exactly when it is the size of a start of the text.  So a text
that is written as one part behind another tells what is found at the offset between the two.

* `byteSize_append` — the size of a text in two parts.
* `afterBytes?_append`, `slice?_append`, `column?_append` — what is found at the end of a first
  part.
* `afterBytes?_eq_some_iff` — there are no other places.
* `closingQuote?_unclosed`, `closingQuote?_closed` — the quote that closes a run.
-/

/-! ### Sizes -/

@[simp]
theorem byteSize_nil : byteSize [] = 0 := rfl

/-- The bytes of a text are those of its first character and those of the others. -/
@[simp]
theorem byteSize_cons (c : Char) (cs : List Char) :
    byteSize (c :: cs) = c.utf8Size + byteSize cs := rfl

/-- The bytes of two texts joined are those of the one and those of the other. -/
@[simp]
theorem byteSize_append (xs ys : List Char) : byteSize (xs ++ ys) = byteSize xs + byteSize ys := by
  induction xs with
  | nil => rw [List.nil_append, byteSize_nil, Nat.zero_add]
  | cons c xs ih => rw [List.cons_append, byteSize_cons, byteSize_cons, ih, Nat.add_assoc]

/-- A place behind a character is a later one. -/
theorem byteSize_lt_append (xs : List Char) (c : Char) (ys : List Char) :
    byteSize xs < byteSize (xs ++ c :: ys) := by
  have hpos := c.utf8Size_pos
  rw [byteSize_append, byteSize_cons]
  omega

@[simp]
theorem utf8Size_quoteMark : quoteMark.utf8Size = 1 := rfl

/-! ### Places -/

/-- A character behind, the offset is smaller by its size. -/
theorem afterBytes?_cons (c : Char) (cs : List Char) (n : Nat) :
    afterBytes? (c :: cs) (c.utf8Size + n) = afterBytes? cs n := by
  have hpos := c.utf8Size_pos
  obtain ⟨k, hk⟩ : ∃ k, c.utf8Size + n = k + 1 := ⟨c.utf8Size + n - 1, by omega⟩
  rw [hk, afterBytes?, if_pos (by omega), ← hk, Nat.add_sub_cancel_left]

/-- What stands before a place behind the first character starts with that character. -/
theorem beforeBytes?_cons (c : Char) (cs : List Char) (n : Nat) :
    beforeBytes? (c :: cs) (c.utf8Size + n) = (beforeBytes? cs n).map (c :: ·) := by
  have hpos := c.utf8Size_pos
  obtain ⟨k, hk⟩ : ∃ k, c.utf8Size + n = k + 1 := ⟨c.utf8Size + n - 1, by omega⟩
  rw [hk, beforeBytes?, if_pos (by omega), ← hk, Nat.add_sub_cancel_left]

section Parts

variable (xs ys zs : List Char)

/-- Behind the bytes of a text stands what follows it. -/
@[simp]
theorem afterBytes?_append : afterBytes? (xs ++ ys) (byteSize xs) = some ys := by
  induction xs with
  | nil => exact afterBytes?_zero ys
  | cons c xs ih => rw [List.cons_append, byteSize_cons, afterBytes?_cons, ih]

/-- Before that place stands the text itself. -/
@[simp]
theorem beforeBytes?_append : beforeBytes? (xs ++ ys) (byteSize xs) = some xs := by
  induction xs with
  | nil => cases ys <;> rfl
  | cons c xs ih => rw [List.cons_append, byteSize_cons, beforeBytes?_cons, ih]; rfl

/-- A part is cut out between the bytes before it and those before what follows it. -/
theorem slice?_append :
    slice? (xs ++ (ys ++ zs)) (byteSize xs) (byteSize (xs ++ ys)) = some ys := by
  have hsize : byteSize (xs ++ ys) - byteSize xs = byteSize ys := by simp
  rw [slice?, if_pos (by simp), hsize, afterBytes?_append, Option.bind_some, beforeBytes?_append]

/-- The column of a place is the number of characters before it. -/
theorem column?_append : column? (xs ++ ys) (byteSize xs) = some xs.length := by
  simp [column?]

end Parts

/-- Only the size of a start of the text is the offset of a place. -/
theorem afterBytes?_eq_some_iff {cs rest : List Char} {n : Nat} :
    afterBytes? cs n = some rest ↔ ∃ before, cs = before ++ rest ∧ n = byteSize before := by
  constructor
  · intro h
    induction cs generalizing n with
    | nil =>
      cases n with
      | zero => exact ⟨[], Option.some.inj h, rfl⟩
      | succ n => cases h
    | cons c cs ih =>
      cases n with
      | zero => exact ⟨[], Option.some.inj h, rfl⟩
      | succ n =>
        rw [afterBytes?] at h
        -- an offset inside the first character is none of a place
        split at h
        case isTrue fits =>
          obtain ⟨before, hcs, hn⟩ := ih h
          exact ⟨c :: before, by rw [hcs, List.cons_append], by rw [byteSize_cons]; omega⟩
        case isFalse => cases h
  · rintro ⟨before, rfl, rfl⟩
    exact afterBytes?_append before rest

/-! ### Quotes -/

/-- A character that is missing has no place. -/
theorem byteOffset?_eq_none {mark : Char} {cs : List Char} (h : mark ∉ cs) :
    byteOffset? mark cs = none := by
  induction cs with
  | nil => rfl
  | cons c cs ih =>
    obtain ⟨hc, hcs⟩ := not_or.1 (mt List.mem_cons.2 h)
    rw [byteOffset?, if_neg (Ne.symm hc), ih hcs]
    rfl

/-- The first place of a character is behind all the bytes before it. -/
theorem byteOffset?_append {mark : Char} {xs : List Char} (h : mark ∉ xs) (ys : List Char) :
    byteOffset? mark (xs ++ mark :: ys) = some (byteSize xs) := by
  induction xs with
  | nil => exact if_pos rfl
  | cons c xs ih =>
    obtain ⟨hc, hxs⟩ := not_or.1 (mt List.mem_cons.2 h)
    rw [List.cons_append, byteOffset?, if_neg (Ne.symm hc), ih hxs, Option.map_some, byteSize_cons,
      Nat.add_comm]

section Quotes

variable (before : List Char) {run : List Char} (rest : List Char)

/-- Behind a quote stands what follows it. -/
theorem afterBytes?_quote :
    afterBytes? (before ++ quoteMark :: rest) (byteSize before + quoteMark.utf8Size)
      = some rest := by
  have := afterBytes?_append (before ++ [quoteMark]) rest
  simpa using this

/-- The run is not closed. -/
theorem closingQuote?_unclosed (h : quoteMark ∉ rest) :
    closingQuote? (before ++ quoteMark :: rest) (byteSize before) = some none := by
  rw [closingQuote?, afterBytes?_quote, Option.map_some, byteOffset?_eq_none h, Option.map_none]

/-- The run is closed by the next quote. -/
theorem closingQuote?_closed (h : quoteMark ∉ run) :
    closingQuote? (before ++ quoteMark :: (run ++ quoteMark :: rest)) (byteSize before)
      = some (some (byteSize (before ++ quoteMark :: run))) := by
  rw [closingQuote?, afterBytes?_quote, Option.map_some, byteOffset?_append h, Option.map_some]
  simp
  omega

/-- The place behind the closing quote. -/
theorem byteSize_closed (run : List Char) :
    byteSize (before ++ quoteMark :: run) + quoteMark.utf8Size
      = byteSize (before ++ quoteMark :: (run ++ [quoteMark])) := by
  simp
  omega

end Quotes

end LineShell
