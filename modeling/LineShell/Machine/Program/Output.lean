import LineShell.Machine.Program

namespace LineShell

/-!
# Programs that write

* `echoProgram`, `printfProgram` — texts.
* `seqProgram`, `yesProgram` — numbers, and the same line for ever.
* `trueProgram`, `falseProgram` — nothing but a code.
-/

/-! ### Escapes -/

/-- The value of a digit in a base up to sixteen. -/
def digitValue? (base : Nat) (c : Char) : Option Nat :=
  let n := c.toLower.toNat
  let v := if c.isDigit then some (n - '0'.toNat)
    else if 'a'.toNat ≤ n ∧ n ≤ 'f'.toNat then some (n - 'a'.toNat + 10) else none
  v.filter (· < base)

/-- The number at the front of a text, of at most `limit` digits, and the text behind it. -/
def numeralAt (base : Nat) : Nat → Nat → List Char → Nat × List Char
  | 0, value, cs => (value, cs)
  | _ + 1, value, [] => (value, [])
  | limit + 1, value, c :: cs =>
    match digitValue? base c with
    | some d => numeralAt base limit (value * base + d) cs
    | none => (value, c :: cs)

/-- A control letter behind a backslash. -/
def controlLetter? (c : Char) : Option UInt8 :=
  match c with
  | 'a' => some 7
  | 'b' => some 8
  | 'e' => some 27
  | 'f' => some 12
  | 'n' => some 10
  | 'r' => some 13
  | 't' => some 9
  | 'v' => some 11
  | '\\' => some 92
  | '"' => some 34
  | _ => none

/-- One escape behind its backslash: its bytes, the text behind it, and whether all output ends
here.  With `zero`, an octal number begins with a zero that does not count. -/
def escapeAt (zero : Bool) : List Char → Bytes × List Char × Bool
  | [] => ([92], [], false)
  | c :: cs =>
    if c = 'c' then ([], [], true)
    else if c = 'x' then
      match cs with
      | d :: _ =>
        if (digitValue? 16 d).isSome then
          let (v, rest) := numeralAt 16 2 0 cs
          ([v.toUInt8], rest, false)
        else ([92, 120], cs, false)
      | [] => ([92, 120], cs, false)
    else
      match controlLetter? c with
      | some b => if zero && c = '"' then ([92, 34], cs, false) else ([b], cs, false)
      | none =>
        if zero ∧ c = '0' then
          let (v, rest) := numeralAt 8 3 0 cs
          ([v.toUInt8], rest, false)
        else if !zero ∧ (digitValue? 8 c).isSome then
          let (v, rest) := numeralAt 8 3 0 (c :: cs)
          ([v.toUInt8], rest, false)
        else (92 :: bytesOf c.toString, cs, false)

/-- A text with its escapes put in, and whether output ends with it. -/
def unescape (zero : Bool) : Nat → List Char → Bytes × Bool
  | 0, _ => ([], false)
  | _, [] => ([], false)
  | fuel + 1, '\\' :: cs =>
    let (bytes, rest, stop) := escapeAt zero cs
    if stop then (bytes, true)
    else
      let (more, stop) := unescape zero fuel rest
      (bytes ++ more, stop)
  | fuel + 1, c :: cs =>
    let (more, stop) := unescape zero fuel cs
    (bytesOf c.toString ++ more, stop)

/-- A text with its escapes put in. -/
def unescapeText (zero : Bool) (s : String) : Bytes × Bool :=
  unescape zero s.length s.toList

/-! ### Texts -/

/-- The flags at the front of the arguments of `echo`, as letters, and the texts. -/
def echoFlags : List String → List Char × List String
  | [] => ([], [])
  | arg :: rest =>
    match arg.toList with
    | '-' :: c :: cs =>
      if (c :: cs).all fun x => x == 'n' || x == 'e' || x == 'E' then
        let (flags, texts) := echoFlags rest
        (c :: cs ++ flags, texts)
      else ([], arg :: rest)
    | _ => ([], arg :: rest)

/-- Writes its arguments, separated by spaces, as a line. -/
def echoProgram : Program := fun _ args =>
  let (flags, texts) := echoFlags args
  let escapes := (flags.filter (· != 'n')).getLast? == some 'e'
  let text := " ".intercalate texts
  let (bytes, stop) := if escapes then unescapeText true text else (bytesOf text, false)
  emit (if stop || flags.contains 'n' then bytes else bytes ++ [lineEnd]) (.exit 0)

/-- How a value is put into a field: to the left, filled with zeros, with a sign, in a width and
with a precision. -/
structure FieldFormat where
  left : Bool := false
  zeros : Bool := false
  plus : Bool := false
  space : Bool := false
  width : Nat := 0
  precision : Option Nat := none

/-- The format behind a percent sign and the text behind the format. -/
def fieldFormatAt (format : FieldFormat) : List Char → FieldFormat × List Char
  | '-' :: cs => fieldFormatAt { format with left := true } cs
  | '0' :: cs => fieldFormatAt { format with zeros := true } cs
  | '+' :: cs => fieldFormatAt { format with plus := true } cs
  | ' ' :: cs => fieldFormatAt { format with space := true } cs
  | cs =>
    let (width, rest) := numeralAt 10 9 0 cs
    match rest with
    | '.' :: rest =>
      let (precision, rest) := numeralAt 10 9 0 rest
      ({ format with width := width, precision := some precision }, rest)
    | _ => ({ format with width := width }, rest)

/-- Bytes put into a field. -/
def FieldFormat.pad (format : FieldFormat) (bytes : Bytes) : Bytes :=
  let fill := List.replicate (format.width - bytes.length) (32 : UInt8)
  if format.left then bytes ++ fill else fill ++ bytes

/-- A number put into a field, in a base and with capital digits or not. -/
def FieldFormat.number (format : FieldFormat) (base : Nat) (capital : Bool) (n : Int) : Bytes :=
  let digits := Nat.toDigits base n.natAbs
  let digits := if capital then digits.map Char.toUpper else digits
  let digits := List.replicate ((format.precision.getD 1) - digits.length) '0' ++ digits
  let sign := if n < 0 then ['-'] else if format.plus then ['+']
    else if format.space then [' '] else []
  let zeros := if format.zeros && !format.left && format.precision.isNone then
    List.replicate (format.width - digits.length - sign.length) '0' else []
  format.pad (bytesOf (String.ofList (sign ++ zeros ++ digits)))

/-- What `printf` has written so far: bytes, complaints and how it goes on. -/
structure Printed where
  bytes : Bytes := []
  complaints : List String := []
  arguments : List String
  /-- Whether an argument was used up. -/
  used : Bool := false
  /-- Whether output has ended. -/
  stopped : Bool := false

/-- Takes the next argument for a field. -/
def Printed.take (p : Printed) : String × Printed :=
  match p.arguments with
  | [] => ("", { p with used := true })
  | a :: rest => (a, { p with arguments := rest, used := true })

/-- Adds bytes. -/
def Printed.add (p : Printed) (bytes : Bytes) : Printed :=
  { p with bytes := p.bytes ++ bytes }

/-- Adds the field that a letter asks for. -/
def Printed.field (p : Printed) (format : FieldFormat) (letter : Char) : Printed :=
  let (argument, p) := p.take
  let asNumber (base : Nat) (capital : Bool) : Printed :=
    if argument.isEmpty then p.add (format.number base capital 0)
    else
      match number? argument with
      | some n => p.add (format.number base capital n)
      | none =>
        { p.add (format.number base capital 0) with
          complaints := p.complaints ++ ["printf: '" ++ argument ++ "': expected a numeric value"] }
  match letter with
  | 's' =>
    let bytes := bytesOf argument
    p.add (format.pad ((format.precision.map bytes.take).getD bytes))
  | 'c' => p.add (format.pad ((bytesOf argument).take 1))
  | 'b' =>
    let (bytes, stop) := unescapeText true argument
    { p.add (format.pad bytes) with stopped := stop }
  | 'd' | 'i' | 'u' => asNumber 10 false
  | 'o' => asNumber 8 false
  | 'x' => asNumber 16 false
  | 'X' => asNumber 16 true
  | _ =>
    { p with
      complaints := p.complaints ++ ["printf: %" ++ letter.toString ++ ": invalid conversion specification"]
      stopped := true }

/-- Goes once through a format. -/
def Printed.run : Nat → Printed → List Char → Printed
  | 0, p, _ => p
  | _, p, [] => p
  | fuel + 1, p, '\\' :: cs =>
    let (bytes, rest, stop) := escapeAt false cs
    if stop then { p.add bytes with stopped := true } else (p.add bytes).run fuel rest
  | fuel + 1, p, '%' :: '%' :: cs => (p.add [37]).run fuel cs
  | fuel + 1, p, '%' :: cs =>
    match fieldFormatAt {} cs with
    | (_, []) => p.add [37]
    | (format, letter :: rest) =>
      let p := p.field format letter
      if p.stopped then p else p.run fuel rest
  | fuel + 1, p, c :: cs => (p.add (bytesOf c.toString)).run fuel cs

/-- Goes through a format until the arguments are used up. -/
def Printed.repeatRun (format : String) : Nat → Printed → Printed
  | 0, p => p
  | fuel + 1, p =>
    let p := { p with used := false }.run format.length format.toList
    if p.stopped || p.arguments.isEmpty || !p.used then p else repeatRun format fuel p

/-- Writes its arguments as a format asks. -/
def printfProgram : Program := fun _ args =>
  let args := match args with
    | "--" :: rest => rest
    | _ => args
  match args with
  | [] =>
    failWith "printf: missing operand\nTry 'printf --help' for more information."
  | format :: arguments =>
    let p := Printed.repeatRun format (arguments.length + 1) { arguments := arguments }
    emit p.bytes (p.complaints.foldr complain (.exit (if p.complaints.isEmpty then 0 else 1)))

/-! ### Sequences -/

/-- Writes whole numbers: up to the first argument, or from the first to the last, in steps given
between them. -/
def seqProgram : Program := fun _ args =>
  let (separator, args) := match args with
    | "-s" :: s :: rest => (s, rest)
    | _ => ("\n", args)
  let run (first step last : Int) : Job :=
    if step = 0 then failWith "seq: invalid Zero increment value: '0'\nTry 'seq --help' for more information."
    else if separator = "\n" then
      .numbers first step last (fun n => bytesOf (toString n ++ "\n")) (.exit 0)
    else if (0 < step ∧ last < first) ∨ (step < 0 ∧ first < last) then .exit 0
    else
      let count := ((last - first) / step).toNat
      let texts := (List.range (count + 1)).map fun k => toString (first + step * Int.ofNat k)
      say (separator.intercalate texts ++ "\n") (.exit 0)
  match args.map number? with
  | [some last] => run 1 1 last
  | [some first, some last] => run first 1 last
  | [some first, some step, some last] => run first step last
  | [] => failWith "seq: missing operand\nTry 'seq --help' for more information."
  | _ =>
    match args.find? fun a => (number? a).isNone with
    | some bad =>
      failWith ("seq: invalid floating point argument: '" ++ bad
        ++ "'\nTry 'seq --help' for more information.")
    | none =>
      failWith ("seq: extra operand '" ++ (args.drop 3).headD ""
        ++ "'\nTry 'seq --help' for more information.")

/-- Writes its arguments as a line, for ever. -/
def yesProgram : Program := fun _ args =>
  .endless (bytesOf ((if args.isEmpty then "y" else " ".intercalate args) ++ "\n"))

/-- Ends well. -/
def trueProgram : Program := fun _ _ => .exit 0

/-- Ends badly. -/
def falseProgram : Program := fun _ _ => .exit 1

end LineShell
