import LineShell.Alias

namespace LineShell

/-!
# Tables of aliases that can come about

A table starts without aliases or with those of every session, and grows by definitions.

* `AliasTable.Update`, `AliasTable.update` — a change to a table.
* `AliasTable.Reachable` — the tables that come about by changes.
* `AliasTable.Worded` — a table whose aliases stand for one word at least.
* `AliasTable.Worded.expand_eq_nil_iff` — replacing such an alias leaves words where there were some.
-/

namespace AliasTable

/-! ### Changes -/

/-- A change to a table: one definition, or a text of definitions. -/
inductive Update where
  | define (name expansion : String)
  | load (definitions : String)

/-- The table behind a change; a definition whose words cannot be told changes nothing. -/
def update (table : AliasTable) : Update → AliasTable
  | .define name expansion => ((table.define? name expansion).map (·.1)).getD table
  | .load definitions => (table.load definitions).1

/-- The table behind some changes. -/
def updateAll (table : AliasTable) (updates : List Update) : AliasTable :=
  updates.foldl update table

/-- The table comes about by changes to the one without aliases or to that of every session. -/
def Reachable (table : AliasTable) : Prop :=
  ∃ updates, table = empty.updateAll updates ∨ table = defaults.updateAll updates

/-! ### What aliases stand for -/

/-- The first word is replaced, if it is an alias, and the others stay as they are. -/
theorem expand_cons (table : AliasTable) (first : String) (rest : List String) :
    table.expand (first :: rest) = (table.resolve first).getD [first] ++ rest := by
  rw [expand]
  cases table.resolve first <;> rfl

/-- Every alias stands for one word at least. -/
def Worded (table : AliasTable) : Prop :=
  ∀ name words, table.resolve name = some words → words ≠ []

/-- Replacing an alias leaves words where there were some. -/
theorem Worded.expand_eq_nil_iff {table : AliasTable} (h : table.Worded) {argv : List String} :
    table.expand argv = [] ↔ argv = [] := by
  cases argv with
  | nil => simp
  | cons first rest =>
    rw [expand_cons]
    cases hresolve : table.resolve first with
    | none => simp
    | some words => simp [h first words hresolve]

end AliasTable

end LineShell
