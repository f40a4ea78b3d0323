import LineShell.Text.Blank

namespace LineShell

/-!
# Paths

A path is a text in which slashes separate names.  Repeated and trailing slashes have no meaning,
and neither has a name `.` that is not the first of a relative path.

* `Path.components` — a path without what has no meaning.
* `Path.join`, `Path.parent?` — a path below a directory, and the directory of a path.
* `Path.baseName` — the last name of a path.
* `Path.underHome` — a path with the home directory put in for a tilde.
-/

namespace Path

/-- The texts between the slashes of a path, in order: an empty one stands
between two slashes and at an end that has one. -/
def pieces : List Char → List (List Char)
  | [] => [[]]
  | c :: cs =>
    if c = '/' then [] :: pieces cs
    else
      match pieces cs with
      | [] => [[c]]
      | name :: names => (c :: name) :: names

/-- The names of a path that are not empty. -/
def names (path : String) : List String :=
  ((pieces path.toList).filter fun name => !name.isEmpty).map String.ofList

/-- Whether a path starts at the root. -/
def isAbsolute (path : String) : Bool :=
  path.toList.head? == some '/'

/-- Whether a path ends with a slash. -/
def endsWithSlash (path : String) : Bool :=
  path.toList.getLast? == some '/'

/-- What a path means: whether it starts at the root, and its names.  A name `.` counts only at
the start of a relative path. -/
def components (path : String) : Bool × List String :=
  let all := names path
  if isAbsolute path then (true, all.filter (· != "."))
  else
    match all with
    | "." :: rest => (false, "." :: rest.filter (· != "."))
    | _ => (false, all.filter (· != "."))

/-- A path below a directory.  One slash is put between unless the directory is the empty path or
ends with one; a path from the root is below no other. -/
def join (directory path : String) : String :=
  if isAbsolute path then path
  else if directory.isEmpty || endsWithSlash directory then directory ++ path
  else directory ++ "/" ++ path

/-- The directory of a path; the root and the empty path have none. -/
def parent? (path : String) : Option String :=
  match components path with
  | (_, []) => none
  | (absolute, all) =>
    some ((if absolute then "/" else "") ++ "/".intercalate all.dropLast)

/-- The last name of a path; a path of slashes alone is its own last name. -/
def baseName (path : String) : String :=
  let trimmed := (path.toList.reverse.dropWhile (· == '/'))
  let name := (trimmed.takeWhile (· != '/')).reverse
  if name.isEmpty then path else String.ofList name

/-- A path with the home directory put in for a tilde that stands alone or before a slash at its
start. -/
def underHome (home path : String) : String :=
  match path.toList with
  | '~' :: rest =>
    if rest.isEmpty || rest.head? == some '/' then home ++ String.ofList rest else path
  | _ => path

end Path

end LineShell
