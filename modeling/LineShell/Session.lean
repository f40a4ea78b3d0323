import LineShell.Alias

namespace LineShell

/-!
# Sessions

* `Session` — what stays the same while the shell runs.
* `Session.ofSettings` — the session of a home directory and a text of aliases.
-/

/-- What stays the same while the shell runs. -/
structure Session where
  /-- The home directory. -/
  home : String
  /-- The aliases. -/
  aliases : AliasTable

/-- The session with a home directory and the definitions of a text, if one is given, on top of
the aliases that every session has; with the records that loading them makes. -/
def Session.ofSettings (home : String) (definitions : Option String) : Session × List Notice :=
  match definitions with
  | none => (⟨home, .defaults⟩, [])
  | some text =>
    let loaded := AliasTable.defaults.load text
    (⟨home, loaded.1⟩, loaded.2)

end LineShell
