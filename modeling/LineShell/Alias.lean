import LineShell.Alias.Expansion
import LineShell.Notice

namespace LineShell

/-!
# Aliases

An alias stands for a list of words and replaces the first word of a command, once.

* `AliasTable` — the aliases of a session.
* `AliasTable.define?`, `AliasTable.load` — one definition, and a text of definitions.
* `AliasTable.resolve`, `AliasTable.expand` — looking an alias up and replacing it.
-/

/-- The aliases of a session, the latest definition of a name first. -/
structure AliasTable where
  entries : List (String × List String)
  deriving DecidableEq

/-- A text cut at every occurrence of a separator. -/
def cutAt (separator : Char) : List Char → List (List Char)
  | [] => [[]]
  | c :: cs =>
    if c = separator then [] :: cutAt separator cs
    else
      match cutAt separator cs with
      | [] => [[c]]
      | piece :: pieces => (c :: piece) :: pieces

/-- The parts of a text before and behind the first occurrence of a separator. -/
def cutOnce? (separator : Char) (cs : List Char) : Option (List Char × List Char) :=
  match cs.span (· != separator) with
  | (_, []) => none
  | (before, _ :: behind) => some (before, behind)

namespace AliasTable

/-- The table without aliases. -/
def empty : AliasTable := ⟨[]⟩

/-- The table that every session starts with. -/
def defaults : AliasTable := ⟨[("ll", ["ls", "-l"])]⟩

/-- The words that a name stands for. -/
def resolve (table : AliasTable) (name : String) : Option (List String) :=
  table.entries.lookup name

/-- The table with one more definition. -/
def insert (table : AliasTable) (name : String) (words : List String) : AliasTable :=
  ⟨(name, words) :: table.entries⟩

/-- Defines a name, taken without spaces at its ends, as the words of a text.  A definition
without a name or without words is passed over.  The answer holds the table and the record for the
log; it is `none` when the words cannot be told, and then nothing is defined or recorded. -/
def define? (table : AliasTable) (name expansion : String) : Option (AliasTable × Notice) :=
  (expansionWords? expansion).map fun words =>
    let name := trimSpaces name
    if name.isEmpty || words.isEmpty then (table, .blankAlias name expansion)
    else (table.insert name words, .aliasDefined name words)

/-- Takes in one entry of a text of definitions. -/
def loadEntry (table : AliasTable) (entry : String) : AliasTable × Notice :=
  match cutOnce? '=' entry.toList with
  | none => (table, .aliasWithoutEquals entry)
  | some (name, expansion) =>
    (table.define? (String.ofList name) (String.ofList expansion)).getD
      (table, .aliasUnreadable entry)

/-- The entries of a text of definitions: its parts between semicolons, blank ones left out. -/
def entriesOf (definitions : String) : List String :=
  ((cutAt ';' definitions.toList).map String.ofList).filter fun entry => !isAllSpaces entry

/-- Takes in entries one after the other. -/
def loadEntries (table : AliasTable) : List String → AliasTable × List Notice
  | [] => (table, [])
  | entry :: rest =>
    let (table, notice) := table.loadEntry entry
    let (table, notices) := table.loadEntries rest
    (table, notice :: notices)

/-- Takes in a text of definitions, written as a name, an equals sign and an expansion each and
separated by semicolons. -/
def load (table : AliasTable) (definitions : String) : AliasTable × List Notice :=
  table.loadEntries (entriesOf definitions)

/-- Replaces the first word by what it stands for, once. -/
def expand (table : AliasTable) : List String → List String
  | [] => []
  | first :: rest =>
    match table.resolve first with
    | some expansion => expansion ++ rest
    | none => first :: rest

@[simp]
theorem expand_nil (table : AliasTable) : table.expand [] = [] := rfl

@[simp]
theorem resolve_empty (name : String) : empty.resolve name = none := rfl

@[simp]
theorem expand_empty (argv : List String) : empty.expand argv = argv := by
  cases argv <;> rfl

/-- One more definition decides what its own name stands for, and no other one. -/
@[simp]
theorem resolve_insert (table : AliasTable) (name : String) (words : List String) (n : String) :
    (table.insert name words).resolve n = if n = name then some words else table.resolve n := by
  by_cases h : n = name
  · simp [resolve, insert, h]
  · have hb : (n == name) = false := by simp [h]
    simp [resolve, insert, List.lookup_cons, h, hb]

end AliasTable

end LineShell
