import LineShell.Proofs.Aliasing.Table
import LineShell.Proofs.Builtin
import Mathlib.Data.List.Induction

namespace LineShell

/-!
# What a history of definitions leaves

Definitions come one at a time or as a text with many of them.  Either way they are entries, one
behind the other, and a valid entry defines a name.  The last one that defines a name counts.

* `Entry`, `Entry.definition?` — an entry, and what it defines when it is valid.
* `AliasTable.Update.entries` — the entries of a change to a table.
* `AliasTable.define?_cases`, `AliasTable.loadEntry_spec`, `AliasTable.load_spec` — an entry is taken
  in, or it is warned of and changes nothing.
* `AliasTable.updateAll_eq` — a table behind any changes, by their entries.
* `AliasTable.Reachable.proper` — the tables that come about hold aliases only: trimmed names that
  stand for words.
* `AliasTable.last_definition_holds` — what a name stands for in the end, and what is warned of on
  the way.
-/

/-! ### Entries -/

/-- An entry of a history of definitions. -/
inductive Entry where
  /-- A name and an expansion, as they were written. -/
  | pair (name expansion : String)
  /-- A piece of a text of definitions that has no equals sign. -/
  | bare (piece : String)

namespace Entry

/-- What an entry defines: its name, without spaces at the ends, stands for the words of its
expansion.  The entry is valid, and defines something, when there is such a name and there are
words. -/
def definition? : Entry → Option (String × List String)
  | .pair name expansion =>
    (expansionWords? expansion).bind fun words =>
      if trimSpaces name = "" ∨ words = [] then none else some (trimSpaces name, words)
  | .bare _ => none

/-- The entry that a piece of a text of definitions makes: what stands before its first equals sign
and what stands behind. -/
def ofPiece (piece : List Char) : Entry :=
  if '=' ∈ piece then
    .pair (String.ofList (piece.takeWhile (· != '=')))
      (String.ofList (piece.dropWhile (· != '=')).tail)
  else .bare (String.ofList piece)

/-- How serious the record of an entry is. -/
def level (entry : Entry) : Level :=
  if entry.definition?.isSome then .debug else .warn

end Entry

namespace AliasTable

/-- The entries of a change: the pair of one definition, and the pieces of a text that stand between
semicolons, blank ones left out. -/
def Update.entries : Update → List Entry
  | .define name expansion => [.pair name expansion]
  | .load definitions =>
    ((definitions.toList.splitOn ';').filter fun piece => !piece.all isSpace).map Entry.ofPiece

/-- The table with an entry taken in; one that is not valid changes nothing. -/
def add (table : AliasTable) (entry : Entry) : AliasTable :=
  match entry.definition? with
  | some (name, words) => table.insert name words
  | none => table

/-! ### Texts of definitions -/

/-- Cutting a text at a separator is splitting it there. -/
theorem cutAt_eq_splitOn (separator : Char) (cs : List Char) :
    cutAt separator cs = cs.splitOn separator := by
  induction cs with
  | nil => rfl
  | cons c cs ih =>
    rw [cutAt, ih, List.splitOn, List.splitOn, List.splitOnP_cons_eq_if_modifyHead]
    by_cases hc : c = separator
    · simp [hc]
    · rw [if_neg hc, if_neg (by simpa using hc)]
      cases h : cs.splitOnP (· == separator) with
      | nil => exact absurd h (List.splitOnP_ne_nil _ _)
      | cons piece pieces => rfl

/-- A text is cut once where the separator stands first. -/
theorem cutOnce?_eq (separator : Char) (cs : List Char) :
    cutOnce? separator cs =
      if separator ∈ cs then
        some (cs.takeWhile (· != separator), (cs.dropWhile (· != separator)).tail)
      else none := by
  rw [cutOnce?, List.span_eq_takeWhile_dropWhile]
  cases hrest : cs.dropWhile (· != separator) with
  | nil =>
    have hnone : separator ∉ cs := fun hmem => by
      simpa using List.dropWhile_eq_nil_iff.1 hrest separator hmem
    rw [if_neg hnone]
  | cons c rest =>
    -- without the separator nothing would be left behind the first part
    have hsome : separator ∈ cs := by
      by_contra hnone
      have hnil : cs.dropWhile (· != separator) = [] := by
        refine List.dropWhile_eq_nil_iff.2 fun c hc => ?_
        have hne : c ≠ separator := by
          rintro rfl
          exact hnone hc
        simpa using hne
      rw [hnil] at hrest
      cases hrest
    rw [if_pos hsome]
    rfl

/-- The pieces of a text of definitions are what its entries are read from. -/
theorem entriesOf_eq (definitions : String) :
    entriesOf definitions
      = ((definitions.toList.splitOn ';').filter fun piece => !piece.all isSpace).map
          String.ofList := by
  rw [entriesOf, cutAt_eq_splitOn, List.filter_map]
  congr 2
  funext piece
  simp [isAllSpaces]

/-! ### Taking entries in -/

/-- One definition: the words of the expansion cannot be told, and nothing is defined, or the pair is
taken in with a record that tells whether it is valid. -/
theorem define?_cases (table : AliasTable) (name expansion : String) :
    (expansionWords? expansion = none ∧ table.define? name expansion = none) ∨
      ∃ notice, table.define? name expansion = some (table.add (.pair name expansion), notice) ∧
        notice.level = (Entry.pair name expansion).level := by
  cases hwords : expansionWords? expansion with
  | none => exact .inl ⟨rfl, by rw [define?, hwords]; rfl⟩
  | some words =>
    right
    by_cases hblank : trimSpaces name = "" ∨ words = []
    · refine ⟨.blankAlias (trimSpaces name) expansion, ?_, ?_⟩
      · simp [define?, hwords, add, Entry.definition?, hblank]
      · simp [Entry.level, Entry.definition?, hwords, hblank, Notice.level]
    · refine ⟨.aliasDefined (trimSpaces name) words, ?_, ?_⟩
      · simp [define?, hwords, add, Entry.definition?, hblank]
      · simp [Entry.level, Entry.definition?, hwords, hblank, Notice.level]

/-- A definition has no answer just when its words cannot be told. -/
theorem define?_eq_none_iff (table : AliasTable) (name expansion : String) :
    table.define? name expansion = none ↔ expansionWords? expansion = none :=
  Option.map_eq_none_iff

/-- One piece of a text: it is taken in, and one record tells whether it is valid. -/
theorem loadEntry_spec (table : AliasTable) (piece : List Char) :
    (table.loadEntry (String.ofList piece)).1 = table.add (.ofPiece piece) ∧
      (table.loadEntry (String.ofList piece)).2.level = (Entry.ofPiece piece).level := by
  rw [loadEntry, String.toList_ofList, cutOnce?_eq, Entry.ofPiece]
  by_cases hmem : '=' ∈ piece
  · rw [if_pos hmem, if_pos hmem]
    dsimp only
    rcases table.define?_cases (String.ofList (piece.takeWhile (· != '=')))
        (String.ofList (piece.dropWhile (· != '=')).tail) with ⟨hwords, hnone⟩ | ⟨notice, hsome, hlevel⟩
    · rw [hnone]
      exact ⟨by simp [add, Entry.definition?, hwords],
        by simp [Entry.level, Entry.definition?, hwords, Notice.level]⟩
    · rw [hsome]
      exact ⟨rfl, hlevel⟩
  · rw [if_neg hmem, if_neg hmem]
    exact ⟨rfl, rfl⟩

/-- Many pieces: they are taken in one after the other, with one record for each. -/
theorem loadEntries_spec (table : AliasTable) (pieces : List (List Char)) :
    (table.loadEntries (pieces.map String.ofList)).1 = (pieces.map Entry.ofPiece).foldl add table ∧
      List.Forall₂ (fun entry notice => notice.level = entry.level) (pieces.map Entry.ofPiece)
        (table.loadEntries (pieces.map String.ofList)).2 := by
  induction pieces generalizing table with
  | nil => exact ⟨rfl, .nil⟩
  | cons piece pieces ih =>
    obtain ⟨htable, hlevel⟩ := table.loadEntry_spec piece
    obtain ⟨htables, hlevels⟩ := ih (table.loadEntry (String.ofList piece)).1
    refine ⟨?_, .cons hlevel hlevels⟩
    show _ = (pieces.map Entry.ofPiece).foldl add (table.add (.ofPiece piece))
    rw [← htable]
    exact htables

/-- A text of definitions: its entries are taken in, with one record for each. -/
theorem load_spec (table : AliasTable) (definitions : String) :
    (table.load definitions).1 = (Update.load definitions).entries.foldl add table ∧
      List.Forall₂ (fun entry notice => notice.level = entry.level)
        (Update.load definitions).entries (table.load definitions).2 := by
  rw [load, entriesOf_eq]
  exact table.loadEntries_spec _

/-- **Changes.** A change takes its entries in. -/
theorem update_eq (table : AliasTable) (change : Update) :
    table.update change = change.entries.foldl add table := by
  cases change with
  | define name expansion =>
    rw [update]
    rcases table.define?_cases name expansion with ⟨hwords, hnone⟩ | ⟨notice, hsome, -⟩
    · simp [hnone, Update.entries, add, Entry.definition?, hwords]
    · rw [hsome]
      rfl
  | load definitions => exact (table.load_spec definitions).1

/-- **Histories.** The table behind some changes has all their entries taken in. -/
theorem updateAll_eq (table : AliasTable) (changes : List Update) :
    table.updateAll changes = (changes.flatMap Update.entries).foldl add table := by
  rw [updateAll, List.foldl_flatMap]
  congr 1
  funext table change
  exact table.update_eq change

/-! ### Looking up -/

/-- What the last definition of a name makes it stand for. -/
def lastOf (name : String) (definitions : List (String × List String)) : Option (List String) :=
  (definitions.filter (·.1 == name)).getLast?.map Prod.snd

/-- A name stands for what the last of the entries that define it says, or for what it stood for
before. -/
theorem resolve_foldl_add (table : AliasTable) (entries : List Entry) (name : String) :
    (entries.foldl add table).resolve name
      = (lastOf name (entries.filterMap Entry.definition?)).or (table.resolve name) := by
  -- the induction is from the end, as the last entry is the one that counts
  induction entries using List.reverseRecOn with
  | nil => rfl
  | append_singleton entries entry ih =>
    rw [List.foldl_append, List.filterMap_append, List.foldl_cons, List.foldl_nil, add]
    cases hdefinition : entry.definition? with
    | none => simpa [hdefinition] using ih
    | some definition =>
      obtain ⟨name', words⟩ := definition
      rw [resolve_insert, ih]
      by_cases hname : name = name'
      · simp [lastOf, hdefinition, hname]
      · simp [lastOf, hdefinition, hname, Ne.symm hname]

/-! ### Tables that come about -/

/-- A name and the words that an alias lets it stand for. -/
structure IsAlias (name : String) (words : List String) : Prop where
  /-- There is a name. -/
  named : name ≠ ""
  /-- It has no spaces at its ends. -/
  trimmed : trimSpaces name = name
  /-- It stands for one word at least. -/
  worded : words ≠ []

/-- What an entry defines is an alias. -/
theorem isAlias_of_definition? {entry : Entry} {name : String} {words : List String}
    (h : entry.definition? = some (name, words)) : IsAlias name words := by
  cases entry with
  | bare piece => cases h
  | pair written expansion =>
    obtain ⟨words', -, h⟩ := Option.bind_eq_some_iff.1 h
    split at h
    case isTrue => cases h
    case isFalse hvalid =>
      obtain ⟨hnamed, hworded⟩ := not_or.1 hvalid
      cases h
      exact ⟨hnamed, trimSpaces_trimSpaces written, hworded⟩

/-- What the table holds are aliases. -/
def Proper (table : AliasTable) : Prop :=
  ∀ name words, table.resolve name = some words → IsAlias name words

namespace Proper

variable {table : AliasTable}

/-- The table without aliases holds nothing that is not proper. -/
theorem empty : empty.Proper := by
  intro name words h
  rw [resolve_empty] at h
  cases h

/-- One more alias keeps a table proper. -/
theorem insert (h : table.Proper) {name : String} {words : List String}
    (halias : IsAlias name words) : (table.insert name words).Proper := by
  intro name' words' hresolve
  rw [resolve_insert] at hresolve
  split at hresolve
  case isTrue hname =>
    cases hresolve
    exact hname ▸ halias
  case isFalse => exact h name' words' hresolve

/-- The table that every session starts with is proper. -/
theorem defaults : defaults.Proper :=
  empty.insert ⟨by decide, by decide +kernel, by decide⟩

/-- Taking in an entry keeps it so. -/
theorem add (h : table.Proper) (entry : Entry) : (table.add entry).Proper := by
  rw [AliasTable.add]
  cases hdefinition : entry.definition? with
  | none => exact h
  | some definition => exact h.insert (isAlias_of_definition? hdefinition)

/-- Any sequence of changes keeps a table proper. -/
theorem updateAll (h : table.Proper) (changes : List Update) : (table.updateAll changes).Proper := by
  rw [updateAll_eq]
  induction changes.flatMap Update.entries generalizing table with
  | nil => exact h
  | cons entry entries ih => exact ih (h.add entry)

end Proper

/-- **Tables.** A table that comes about holds aliases only. -/
theorem Reachable.proper {table : AliasTable} (h : table.Reachable) : table.Proper := by
  obtain ⟨changes, rfl | rfl⟩ := h
  · exact Proper.empty.updateAll changes
  · exact Proper.defaults.updateAll changes

/-- No alias of a table that a session can have stands for nothing. -/
theorem Reachable.worded {table : AliasTable} (h : table.Reachable) : table.Worded :=
  fun name words halias => (h.proper name words halias).worded

/-- **Definitions.** In the end a name stands for the words of the last valid entry that defines it,
or for what it stood for before.  A text of definitions leaves one record for each of its entries,
and warns of those that are not valid.  A definition comes to nothing exactly when its words cannot
be told, and then the table stays as it is.  The tables that come about hold aliases only, and
replacing one leaves words where there were some. -/
theorem last_definition_holds (table : AliasTable) :
    (∀ changes name, (table.updateAll changes).resolve name
      = (lastOf name ((changes.flatMap Update.entries).filterMap Entry.definition?)).or
          (table.resolve name)) ∧
    (∀ definitions, List.Forall₂ (fun entry notice => notice.level = entry.level)
      (Update.load definitions).entries (table.load definitions).2) ∧
    (∀ name expansion,
      (table.define? name expansion = none ↔ expansionWords? expansion = none) ∧
      (table.define? name expansion = none → table.update (.define name expansion) = table)) ∧
    (table.Reachable → table.Proper ∧ ∀ argv, table.expand argv = [] ↔ argv = []) := by
  refine ⟨fun changes name => ?_, fun definitions => (table.load_spec definitions).2,
    fun name expansion => ⟨table.define?_eq_none_iff name expansion, fun hnone => ?_⟩,
    fun h => ⟨h.proper, fun argv => h.worded.expand_eq_nil_iff⟩⟩
  · rw [updateAll_eq, resolve_foldl_add]
  · rw [update, hnone]
    rfl

/-- Blank names, blank expansions, missing equals signs and open quotes are warned of, and the last of
two definitions counts. -/
example :
    let loaded := defaults.load "la=ls -a;broken; ;=x;empty=;q='a;ll=ls -lh;ll=\"ls"
    loaded.2.map Notice.level = [.debug, .warn, .warn, .warn, .warn, .debug, .warn] ∧
      loaded.1.resolve "la" = some ["ls", "-a"] ∧ loaded.1.resolve "ll" = some ["ls", "-lh"] := by
  decide +kernel

end AliasTable

/-- The aliases of a session come about. -/
theorem Session.ofSettings_reachable (home : String) (definitions : Option String) :
    (Session.ofSettings home definitions).1.aliases.Reachable := by
  cases definitions with
  | none => exact ⟨[], .inr rfl⟩
  | some text => exact ⟨[.load text], .inr rfl⟩

end LineShell
