import LineShell.Machine.Program.Output

namespace LineShell

/-!
# Programs that pass text on

* `catProgram`, `headProgram`, `tailProgram`, `tacProgram`, `nlProgram` — lines as they stand.
* `wcProgram` — counts.
* `sortProgram`, `uniqProgram` — lines in order, and runs of equal lines.
* `trProgram`, `cutProgram` — characters and fields.
-/

/-! ### Whole texts -/

/-- Passes on the inputs of operands, one after the other. -/
def catInputs (code : Int) : List String → Job
  | [] => .exit code
  | "-" :: rest =>
    .copy (fun e => complain (fileMessage "cat" "-" e) (catInputs 1 rest))
      (catInputs code rest)
  | path :: rest =>
    .look fun tree =>
      match readPath tree path with
      | .ok bytes => emit bytes (catInputs code rest)
      | .error e => complain (fileMessage "cat" path e) (catInputs 1 rest)

/-- Lines with numbers before them; with `skip`, an empty line gets none. -/
def numberLines (skip : Bool) (lines : List Bytes) : List Bytes :=
  let step (acc : Nat × List Bytes) (line : Bytes) : Nat × List Bytes :=
    if skip && line.isEmpty then (acc.1, line :: acc.2)
    else (acc.1 + 1, (bytesOf (padLeft 6 (toString acc.1) ++ "\t") ++ line) :: acc.2)
  (lines.foldl step (1, [])).2.reverse

/-- Passes on its inputs. -/
def catProgram : Program := fun _ args =>
  let (options, operands) := splitOptions args
  let letters := optionLetters options
  let operands := if operands.isEmpty then ["-"] else operands
  let marksEnds := letters.any fun c => c == 'E' || c == 'A' || c == 'e'
  let numbers := letters.any fun c => c == 'n' || c == 'b'
  if letters.all fun c => c == 'u' then catInputs 0 operands
  else
    readAll (fileMessage "cat") operands fun code bytes =>
      let lines := linesOf bytes
      let lines := if marksEnds then lines.map (· ++ [36]) else lines
      let lines := if numbers then numberLines (letters.contains 'b') lines else lines
      emit (ofLines lines) (.exit code)

/-- The count of an option such as `-n 3`, `-n3` or `-3`, and the operands. -/
def countOption (letter : Char) : List String → Option String × List String
  | [] => (none, [])
  | arg :: rest =>
    match arg.toList with
    | ['-', c] =>
      if c = letter then
        match rest with
        | value :: rest => (some value, rest)
        | [] => (some "", [])
      else if c.isDigit && letter == 'n' then (some c.toString, rest)
      else
        let (value, operands) := countOption letter rest
        (value, arg :: operands)
    | '-' :: c :: cs =>
      if c = letter then (some (String.ofList cs), rest)
      else if letter = 'n' ∧ (c :: cs).all Char.isDigit then (some (String.ofList (c :: cs)), rest)
      else
        let (value, operands) := countOption letter rest
        (value, arg :: operands)
    | _ =>
      let (value, operands) := countOption letter rest
      (value, arg :: operands)

/-- Parts of inputs, each under a heading when there is more than one. -/
def underHeadings (part : Bytes → Bytes) (inputs : List (String × Bytes)) : Bytes :=
  let shown := inputs.map fun (name, bytes) =>
    let name := if name = "-" then "standard input" else name
    if inputs.length > 1 then bytesOf ("==> " ++ name ++ " <==\n") ++ part bytes else part bytes
  [lineEnd].intercalate shown

/-- Passes on the first lines or bytes of its inputs. -/
def headProgram : Program := fun _ args =>
  let (bytesText, args) := countOption 'c' args
  let (linesText, operands) := countOption 'n' args
  let streams := operands.isEmpty || operands == ["-"]
  let run (count : Nat) (inBytes : Bool) : Job :=
    let failed (e : Errno) : Job :=
      failWith ("head: error reading 'standard input': " ++ e.description)
    if streams then
      if inBytes then .takeBytes count failed (.exit 0) else .takeLines count failed (.exit 0)
    else
      readInputs (openMessage "head" "cannot open") 0 [] operands fun code inputs =>
        emit (underHeadings (fun bytes =>
          if inBytes then bytes.take count else (ofLines ((linesOf bytes).take count)).take bytes.length)
          inputs) (.exit code)
  match bytesText, linesText with
  | some text, _ =>
    match natural? text.toList with
    | some n => run n true
    | none => failWith ("head: invalid number of bytes: '" ++ text ++ "'")
  | none, some text =>
    match natural? text.toList with
    | some n => run n false
    | none => failWith ("head: invalid number of lines: '" ++ text ++ "'")
  | none, none => run 10 false

/-- Passes on the last lines or bytes of its inputs; a count with a plus sign is where to begin. -/
def tailProgram : Program := fun _ args =>
  let (bytesText, args) := countOption 'c' args
  let (linesText, operands) := countOption 'n' args
  let part (text : String) (inBytes : Bool) (bytes : Bytes) : Bytes :=
    let plus := text.toList.head? == some '+'
    let digits := text.toList.dropWhile fun c => c == '+' || c == '-'
    let n := (natural? digits).getD 10
    if inBytes then
      if plus then bytes.drop (n - 1) else bytes.drop (bytes.length - n)
    else
      let lines := linesOf bytes
      let before := if plus then n - 1 else lines.length - n
      bytes.drop (ofLines (lines.take before)).length
  let operands := if operands.isEmpty then ["-"] else operands
  readInputs (openMessage "tail" "cannot open") 0 [] operands fun code inputs =>
    let chosen := match bytesText with
      | some text => part text true
      | none => part (linesText.getD "10") false
    emit (underHeadings chosen inputs) (.exit code)

/-- Passes on the lines of its inputs, last first. -/
def tacProgram : Program := fun _ args =>
  readAll (openMessage "tac" "failed to open") args fun code bytes => emit (ofLines (linesOf bytes).reverse) (.exit code)

/-- Passes on the lines of its inputs with numbers before them. -/
def nlProgram : Program := fun _ args =>
  readAll (fileMessage "nl") (splitOptions args).2 fun code bytes =>
    let lines := (numberLines true (linesOf bytes)).map fun line =>
      if line.isEmpty then bytesOf "       " else line
    emit (ofLines lines) (.exit code)

/-! ### Counts -/

/-- Whether a byte separates words. -/
def isByteSpace (b : UInt8) : Bool :=
  (9 ≤ b && b ≤ 13) || b == 32

/-- The number of words in bytes; `inWord` says whether a word has begun, and `count` how many
have. -/
def countWords (inWord : Bool) (count : Nat) : Bytes → Nat
  | [] => count
  | b :: bs =>
    if isByteSpace b then countWords false count bs
    else countWords true (if inWord then count else count + 1) bs

/-- The lines, words and bytes of an input. -/
def countsOf (bytes : Bytes) : Nat × Nat × Nat :=
  (bytes.count lineEnd, countWords false 0 bytes, bytes.length)

/-- Counts lines, words and bytes of its inputs. -/
def wcProgram : Program := fun _ args =>
  let (options, operands) := splitOptions args
  let letters := optionLetters options
  let letters := if letters.isEmpty then ['l', 'w', 'c'] else letters
  let wanted (counts : Nat × Nat × Nat) : List Nat :=
    (if letters.contains 'l' then [counts.1] else [])
      ++ (if letters.contains 'w' then [counts.2.1] else [])
      ++ (if letters.contains 'm' then [counts.2.2] else [])
      ++ (if letters.contains 'c' then [counts.2.2] else [])
  let single := (wanted (0, 0, 0)).length = 1
  let row (width : Nat) (counts : Nat × Nat × Nat) (name : String) : String :=
    " ".intercalate ((wanted counts).map fun n => padLeft width (toString n))
      ++ (if name.isEmpty then "" else " " ++ name) ++ "\n"
  if operands.isEmpty then
    .inputSize fun size =>
      let width := if single then 1
        else match size with
          | some n => (toString n).length
          | none => 7
      .gather []
        (fun e => complain (fileMessage "wc" "standard input" e)
          (say (row (if single then 1 else 7) (0, 0, 0) "") (.exit 1)))
        (fun bytes => say (row width (countsOf bytes) "") (.exit 0))
  else
    readInputs (fileMessage "wc") 0 [] operands fun code inputs =>
      let total := inputs.foldl
        (fun sum input =>
          let c := countsOf input.2
          (sum.1 + c.1, sum.2.1 + c.2.1, sum.2.2 + c.2.2)) (0, 0, 0)
      let width :=
        if single && operands.length = 1 then 1
        else if operands.contains "-" then 7
        else (toString total.2.2).length
      let rows := inputs.map fun (name, bytes) => row width (countsOf bytes) name
      let last := if operands.length > 1 then [row width total "total"] else []
      say (String.join (rows ++ last)) (.exit code)

/-! ### Order -/

/-- The number at the front of a line. -/
def leadingNumber (line : Bytes) : Int :=
  let line := line.dropWhile isByteSpace
  let (negative, digits) := match line with
    | 45 :: rest => (true, rest)
    | _ => (false, line)
  let digits := digits.takeWhile fun b => 48 ≤ b && b ≤ 57
  let n := digits.foldl (fun n b => n * 10 + (b.toNat - 48)) 0
  if negative then -(Int.ofNat n) else Int.ofNat n

/-- Whether bytes come before others or are equal to them. -/
def bytesLe : Bytes → Bytes → Bool
  | [], _ => true
  | _ :: _, [] => false
  | a :: as, b :: bs => if a = b then bytesLe as bs else a < b

/-- The first items of the runs of items that a relation holds to be the same, with the lengths of
the runs. -/
def runsOf {α : Type} (same : α → α → Bool) (items : List α) : List (Nat × α) :=
  let step (runs : List (Nat × α)) (item : α) : List (Nat × α) :=
    match runs with
    | (n, first) :: rest =>
      if same first item then (n + 1, first) :: rest else (1, item) :: (n, first) :: rest
    | [] => [(1, item)]
  (items.foldl step []).reverse

/-- A letter in lower case as a byte. -/
def lowerByte (b : UInt8) : UInt8 :=
  if 65 ≤ b && b ≤ 90 then b + 32 else b

/-- Passes on the lines of its inputs in order. -/
def sortProgram : Program := fun _ args =>
  let (options, operands) := splitOptions args
  let letters := optionLetters options
  let has (c : Char) : Bool := letters.contains c
  let folded (line : Bytes) : Bytes := if has 'f' then line.map lowerByte else line
  let keyLe (a b : Bytes) : Bool :=
    if has 'n' then decide (leadingNumber a ≤ leadingNumber b) else bytesLe (folded a) (folded b)
  let le (a b : Bytes) : Bool :=
    if keyLe a b && keyLe b a then has 'u' || bytesLe a b else keyLe a b
  let ordered (a b : Bytes) : Bool := if has 'r' then le b a else le a b
  readAll (fileMessage "sort: cannot read") operands fun code bytes =>
    if code != 0 then .exit 2
    else
      let lines := (linesOf bytes).mergeSort ordered
      let lines := if has 'u' then (runsOf (fun a b => keyLe a b && keyLe b a) lines).map (·.2) else lines
      emit (ofLines lines) (.exit 0)

/-- Passes on one line of each run of equal lines. -/
def uniqProgram : Program := fun _ args =>
  let (options, operands) := splitOptions args
  let letters := optionLetters options
  let key (line : Bytes) : Bytes := if letters.contains 'i' then line.map lowerByte else line
  readAll (fileMessage "uniq") operands fun code bytes =>
    let runs := runsOf (fun a b => key a == key b) (linesOf bytes)
    let runs := if letters.contains 'd' then runs.filter fun run => run.1 > 1 else runs
    let runs := if letters.contains 'u' then runs.filter fun run => run.1 == 1 else runs
    let lines := runs.map fun (n, line) =>
      if letters.contains 'c' then bytesOf (padLeft 7 (toString n) ++ " ") ++ line else line
    emit (ofLines lines) (.exit code)

/-! ### Characters and fields -/

/-- The bytes of a named class. -/
def namedClass? (name : String) : Option Bytes :=
  let all : Bytes := (List.range 256).map Nat.toUInt8
  let pick (p : Char → Bool) : Bytes := all.filter fun b => b < 128 && p (Char.ofNat b.toNat)
  match name with
  | "upper" => some (pick Char.isUpper)
  | "lower" => some (pick Char.isLower)
  | "alpha" => some (pick Char.isAlpha)
  | "digit" => some (pick Char.isDigit)
  | "alnum" => some (pick Char.isAlphanum)
  | "space" => some (all.filter isByteSpace)
  | "blank" => some [9, 32]
  | "punct" => some (pick fun c => 32 < c.toNat && c.toNat < 127 && !c.isAlphanum)
  | "cntrl" => some (pick fun c => c.toNat < 32 || c.toNat == 127)
  | "print" => some (pick fun c => 32 ≤ c.toNat && c.toNat < 127)
  | "graph" => some (pick fun c => 32 < c.toNat && c.toNat < 127)
  | "xdigit" => some (pick fun c => (digitValue? 16 c).isSome)
  | _ => none

/-- The bytes of a set of characters: classes, escapes, ranges and the characters themselves. -/
def setBytes : Nat → List Char → Bytes
  | 0, _ => []
  | _, [] => []
  | fuel + 1, '[' :: ':' :: cs =>
    let name := cs.takeWhile (· != ':')
    match namedClass? (String.ofList name), cs.drop name.length with
    | some bytes, ':' :: ']' :: rest => bytes ++ setBytes fuel rest
    | _, _ => 91 :: 58 :: setBytes fuel cs
  | fuel + 1, '\\' :: cs =>
    let (bytes, rest, _) := escapeAt false cs
    bytes ++ setBytes fuel rest
  | fuel + 1, a :: '-' :: b :: cs =>
    let low := a.toNat
    let high := b.toNat
    if low < 128 && high < 128 && low ≤ high then
      (List.range (high - low + 1)).map (fun k => (low + k).toUInt8) ++ setBytes fuel cs
    else bytesOf a.toString ++ setBytes fuel ('-' :: b :: cs)
  | fuel + 1, c :: cs => bytesOf c.toString ++ setBytes fuel cs

/-- The bytes of a set of characters. -/
def setOf (s : String) : Bytes :=
  setBytes (s.length + 1) s.toList

/-- One byte for each run of equal bytes of a set. -/
def squeeze (set : Bytes) (bytes : Bytes) : Bytes :=
  (runsOf (fun a b => a == b && set.contains a) bytes).map (·.2)

/-- Replaces, drops or squeezes characters of its input. -/
def trProgram : Program := fun _ args =>
  let (options, operands) := splitOptions args
  let letters := optionLetters options
  let complement := letters.any fun c => c == 'c' || c == 'C'
  let base (s : String) : Bytes :=
    let set := setOf s
    if complement then (((List.range 256).map Nat.toUInt8).filter fun b => !set.contains b) else set
  let failed (e : Errno) : Job := failWith ("tr: read error: " ++ e.description)
  let run (f : Bytes → Bytes) : Job := .gather [] failed fun bytes => emit (f bytes) (.exit 0)
  match letters.contains 'd', letters.contains 's', operands with
  | true, false, [s] => run fun bytes =>
      let set := base s
      bytes.filter fun b => !set.contains b
  | true, true, [s, t] => run fun bytes =>
      let set := base s
      squeeze (setOf t) (bytes.filter fun b => !set.contains b)
  | false, true, [s] => run fun bytes => squeeze (base s) bytes
  | false, squeezes, [s, t] =>
    let sources := base s
    let targets := setOf t
    if targets.isEmpty then
      failWith "tr: when not truncating set1, string2 must be non-empty"
    else
      let last := targets.getLast?.getD 0
      let table := (sources.zip (targets ++ List.replicate (sources.length - targets.length) last)).reverse
      run fun bytes =>
        let mapped := bytes.map fun b => (table.lookup b).getD b
        if squeezes then squeeze targets mapped else mapped
  | _, _, [] => failWith "tr: missing operand\nTry 'tr --help' for more information."
  | _, _, [s] =>
    failWith ("tr: missing operand after '" ++ s
      ++ "'\nTwo strings must be given when translating.\nTry 'tr --help' for more information.")
  | _, _, _ :: _ :: t :: _ =>
    failWith ("tr: extra operand '" ++ t ++ "'\nTry 'tr --help' for more information.")
  | true, false, [_, t] =>
    failWith ("tr: extra operand '" ++ t
      ++ "'\nOnly one string may be given when deleting without squeezing repeats.\nTry 'tr --help' for more information.")

/-- The positions that a list such as `1,3-5,7-` gives. -/
def positionTest (list : String) : Nat → Bool :=
  let parts := (list.splitOn ",").map fun part =>
    match part.splitOn "-" with
    | [n] => let n := (natural? n.toList).getD 0
      (n, some n)
    | [low, high] => ((natural? low.toList).getD 1, natural? high.toList)
    | _ => (0, some 0)
  fun k => parts.any fun (low, high) => low ≤ k && (high.map (fun h => decide (k ≤ h))).getD true

/-- The items at chosen positions, counted from one. -/
def pickPositions {α : Type} (test : Nat → Bool) (items : List α) : List α :=
  ((items.zip (List.range items.length)).filter fun item => test (item.2 + 1)).map (·.1)

/-- Bytes cut at a separator. -/
def cutBytes (separator : UInt8) (field : Bytes) (done : List Bytes) : Bytes → List Bytes
  | [] => (field.reverse :: done).reverse
  | b :: bs =>
    if b = separator then cutBytes separator [] (field.reverse :: done) bs
    else cutBytes separator (b :: field) done bs

/-- Passes on chosen fields or characters of each line. -/
def cutProgram : Program := fun _ args =>
  let (separator, args) := countOption 'd' args
  let (fields, args) := countOption 'f' args
  let (positions, args) := countOption 'c' args
  let (bytePositions, args) := countOption 'b' args
  let (options, operands) := splitOptions args
  let onlyCut := (optionLetters options).contains 's'
  let byte := ((bytesOf (separator.getD "\t")).head?).getD 9
  match fields, positions.or bytePositions with
  | some list, _ =>
    let test := positionTest list
    readAll (fileMessage "cut") operands fun code bytes =>
      let lines := (linesOf bytes).filterMap fun line =>
        if line.contains byte then
          some ([byte].intercalate (pickPositions test (cutBytes byte [] [] line)))
        else if onlyCut then none else some line
      emit (ofLines lines) (.exit code)
  | none, some list =>
    let test := positionTest list
    readAll (fileMessage "cut") operands fun code bytes =>
      emit (ofLines ((linesOf bytes).map fun line => pickPositions test line)) (.exit code)
  | none, none =>
    failWith "cut: you must specify a list of bytes, characters, or fields\nTry 'cut --help' for more information."

end LineShell
