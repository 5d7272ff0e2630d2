import BucketBench.Shell.Format
import BucketBench.Shell.Machine
import BucketBench.Shell.Pattern

set_option autoImplicit false

/-!
# Commands that a shell always finds

The commands whose arguments are texts: output, tests, files, and filters over the input.
-/

namespace BucketBench.Shell

open Running

def spaced (args : List Octets) : Octets := (args.intersperse [' ']).flatten

def quotedName (s : Octets) : String := String.ofList s

/-! ## Output -/

def echo (args : List Octets) : Running Unit := do
  let (newline, args) := match args with
    | ['-', 'n'] :: rest => (false, rest)
    | args => (true, args)
  let e := unescapeAll true (spaced args)
  write 1 (e.text ++ if newline && !e.stop then ['\n'] else [])
  setStatus 0

def printf (args : List Octets) : Running Unit :=
  match (if args.head? == some ['-', '-'] then args.tail else args) with
  | [] => do
    complain "printf: usage: printf format [arg ...]"
    setStatus 2
  | format :: args => do
    let f := Shell.format format args
    f.complaints.forM fun c => complain ("printf: " ++ c)
    write 1 f.output
    setStatus (if f.complaints.isEmpty then 0 else if f.stop then 2 else 1)

/-! ## Tests -/

abbrev Verdict := Except String Bool

def testNumber (s : Octets) : Except String Int :=
  let t := s.dropWhile isBlankOctet
  let t := (t.reverse.dropWhile isBlankOctet).reverse
  let (sign, ds) : Int × Octets := match t with
    | '-' :: r => (-1, r)
    | '+' :: r => (1, r)
    | r => (1, r)
  if ds.isEmpty || ds.any (!·.isDigit) then .error ("Illegal number: " ++ quotedName s)
  else .ok (sign * Arithmetic.ofDigits 10 ds)

def testOne (files : Files) (operator operand : Octets) : Option Verdict :=
  let entry := (files.get (toText operand)).toOption
  match operator with
  | ['-', 'n'] => some (.ok !operand.isEmpty)
  | ['-', 'z'] => some (.ok operand.isEmpty)
  | ['-', 'e'] | ['-', 'r'] | ['-', 'w'] => some (.ok entry.isSome)
  | ['-', 'f'] => some (.ok (match entry with
    | some (.file _) => true
    | _ => false))
  | ['-', 'd'] | ['-', 'x'] => some (.ok (entry == some .directory))
  | ['-', 's'] => some (.ok (match entry with
    | some (.file c) => 0 < c.size
    | some .directory => true
    | none => false))
  | ['-', 't'] | ['-', 'L'] | ['-', 'h'] => some (.ok false)
  | _ => none

def testTwo (a operator b : Octets) : Option Verdict :=
  let compare (f : Int → Int → Bool) : Option Verdict := some do return f (← testNumber a) (← testNumber b)
  match String.ofList operator with
  | "=" => some (.ok (a == b))
  | "!=" => some (.ok (a != b))
  | "<" => some (.ok (String.ofList a < String.ofList b))
  | ">" => some (.ok (String.ofList b < String.ofList a))
  | "-eq" => compare (· == ·)
  | "-ne" => compare (· != ·)
  | "-lt" => compare (· < ·)
  | "-le" => compare (· ≤ ·)
  | "-gt" => compare (fun x y => y < x)
  | "-ge" => compare (fun x y => y ≤ x)
  | _ => none

mutual

/-- Alternatives of a test, and the words behind them. -/
def testAny (files : Files) : Nat → List Octets → Except String (Bool × List Octets)
  | 0, _ => .error "argument expected"
  | fuel + 1, ws => do
    let (a, rest) ← testAll files fuel ws
    match rest with
    | ['-', 'o'] :: rest =>
      let (b, rest) ← testAny files fuel rest
      return (a || b, rest)
    | _ => return (a, rest)

def testAll (files : Files) : Nat → List Octets → Except String (Bool × List Octets)
  | 0, _ => .error "argument expected"
  | fuel + 1, ws => do
    let (a, rest) ← testSingle files fuel ws
    match rest with
    | ['-', 'a'] :: rest =>
      let (b, rest) ← testAll files fuel rest
      return (a && b, rest)
    | _ => return (a, rest)

def testSingle (files : Files) : Nat → List Octets → Except String (Bool × List Octets)
  | 0, _ => .error "argument expected"
  | fuel + 1, ws =>
    match ws with
    | [] => .error "argument expected"
    | [a] => .ok (!a.isEmpty, [])
    | a :: b :: rest =>
      let other : Except String (Bool × List Octets) :=
        if a = ['!'] then do
          let (r, rest) ← testSingle files fuel (b :: rest)
          return (!r, rest)
        else if a = ['('] then do
          let (r, rest) ← testAny files fuel (b :: rest)
          match rest with
          | [')'] :: rest => return (r, rest)
          | _ => throw "closing paren expected"
        else
          match testOne files a b with
          | some v => v.map (·, rest)
          | none => .ok (!a.isEmpty, b :: rest)
      match rest with
      | c :: rest =>
        match testTwo a b c with
        | some v => v.map (·, rest)
        | none => other
      | [] =>
        if (testTwo [] b []).isSome && (testOne files a b).isNone && a ≠ ['!'] then
          .error (quotedName b ++ ": argument expected")
        else other

end

/-- The verdict on the words of a test; no words at all do not hold. -/
def testWords (files : Files) (ws : List Octets) : Verdict :=
  if ws.isEmpty then .ok false
  else do
    let (r, rest) ← testAny files (3 * ws.length + 3) ws
    if rest.isEmpty then return r
    else throw (quotedName ((ws[ws.length - rest.length - 1]?).getD []) ++ ": unexpected operator")

def test (name : String) (ws : List Octets) : Running Unit := do
  match testWords (← get).files ws with
  | .ok r => setStatus (if r then 0 else 1)
  | .error text =>
    complain (name ++ ": " ++ text)
    setStatus 2

/-! ## Files and filters -/

/-- What a command reads: the files it names, or its input. -/
def readFile (name : String) (path : Octets) : Running (Option Octets) := do
  if path = ['-'] then
    let s := (← get).input
    modify fun m => { m with input := [] }
    return some s
  let text := toText path
  if text = "/dev/null" then return some []
  match (← get).files.read text with
  | .ok c => return some (octets c.toBytes)
  | .error fault =>
    let reason := match fault with
      | .isADirectory => "Is a directory"
      | .notADirectory => "Not a directory"
      | _ => "No such file or directory"
    complainPlainly (name ++ ": " ++ text ++ ": " ++ reason)
    return none

/-- The contents of all files that are named, or the input when none is. -/
def readFiles (name : String) (paths : List Octets) : Running Octets := do
  let parts ← (if paths.isEmpty then [['-']] else paths).mapM (readFile name)
  setStatus (if parts.any Option.isNone then 1 else 0)
  return (parts.filterMap id).flatten

def lines : Octets → List Octets
  | [] => []
  | c :: r =>
    if c = '\n' then ['\n'] :: lines r
    else
      match lines r with
      | l :: rest => (c :: l) :: rest
      | [] => [[c]]

def cat (args : List Octets) : Running Unit := do
  write 1 (← readFiles "cat" (args.filter (· ≠ ['-', 'u'])))

/-- The count of `-n 3`, `-n3` or `-3`, the unit, and the other arguments. -/
def countOption (args : List Octets) : (Bool × Nat) × List Octets :=
  match args with
  | ['-', 'n'] :: n :: rest => ((true, Arithmetic.ofDigits 10 n), rest)
  | ['-', 'c'] :: n :: rest => ((false, Arithmetic.ofDigits 10 n), rest)
  | ('-' :: 'n' :: n) :: rest => ((true, Arithmetic.ofDigits 10 n), rest)
  | ('-' :: 'c' :: n) :: rest => ((false, Arithmetic.ofDigits 10 n), rest)
  | ('-' :: d :: n) :: rest =>
    if d.isDigit then ((true, Arithmetic.ofDigits 10 (d :: n)), rest) else ((true, 10), args)
  | args => ((true, 10), args)

def head (args : List Octets) : Running Unit := do
  let ((byLines, n), paths) := countOption args
  if byLines = false && paths = ["/dev/zero".toList] then
    write 1 (List.replicate n '\x00')
    setStatus 0
  else
    let s ← readFiles "head" paths
    write 1 (if byLines then ((lines s).take n).flatten else s.take n)

def tail (args : List Octets) : Running Unit := do
  let ((byLines, n), paths) := countOption args
  let s ← readFiles "tail" paths
  let ls := lines s
  write 1 (if byLines then (ls.drop (ls.length - n)).flatten else s.drop (s.length - n))

def countWords (s : Octets) : Nat :=
  let (words, last) := splitLoose none s
  (words ++ last.toList).length

def wc (args : List Octets) : Running Unit := do
  let (options, paths) := args.partition fun a => a.length == 2 && a.head? == some '-'
  let s ← readFiles "wc" paths
  let counts := (if options.isEmpty then [['-', 'l'], ['-', 'w'], ['-', 'c']] else options).map fun o =>
    match o with
    | ['-', 'l'] => s.count '\n'
    | ['-', 'w'] => countWords s
    | _ => s.length
  let width := if counts.length = 1 then 1 else 7
  let shown := counts.map fun n => pad false ' ' width (toString n).toList
  write 1 (spaced (shown ++ paths) ++ ['\n'])

/-- The bytes of a set such as `a-z`. -/
def byteSet : Nat → Octets → Octets
  | 0, s => s
  | fuel + 1, a :: '-' :: b :: r =>
    (List.range (b.toNat + 1 - a.toNat)).map (fun i => Char.ofNat (a.toNat + i)) ++ byteSet fuel r
  | fuel + 1, c :: r => c :: byteSet fuel r
  | _, [] => []

def tr (args : List Octets) : Running Unit := do
  let set (s : Octets) : Octets := byteSet s.length (unescapeAll false s).text
  let input := (← get).input
  modify fun m => { m with input := [] }
  let output := match args with
    | [['-', 'd'], a] => input.filter fun c => !(set a).contains c
    | [a, b] =>
      let (a, b) := (set a, set b)
      input.map fun c =>
        match a.idxOf? c with
        | some i => (b[i]?).getD ((b.getLast?).getD c)
        | none => c
    | _ => input
  write 1 output
  setStatus 0

def sort (args : List Octets) : Running Unit := do
  let (options, paths) := args.partition fun a => a.head? == some '-' && a.length ≠ 1
  let s ← readFiles "sort" paths
  let ls := (lines s).map fun l => if l.getLast? == some '\n' then l else l ++ ['\n']
  let ls := ls.mergeSort fun a b => String.ofList a ≤ String.ofList b
  let ls := if options.contains ['-', 'u'] then ls.eraseDups else ls
  write 1 (if options.contains ['-', 'r'] then ls.reverse else ls).flatten

def grep (args : List Octets) : Running Unit := do
  let (options, rest) := args.partition fun a => a.head? == some '-' && a.length ≠ 1
  let has (c : Char) : Bool := options.any (·.contains c)
  match rest with
  | [] => setStatus 2
  | pattern :: paths =>
    let s ← readFiles "grep" paths
    let failed := (← get).status ≠ 0
    let found := (lines s).filter fun l =>
      ((endsOf (l.filter (· ≠ '\n'))).any (pattern.isPrefixOf ·)) != has 'v'
    if has 'c' then write 1 ((toString found.length).toList ++ ['\n'])
    else if !has 'q' then
      write 1 (found.flatMap fun l => if l.getLast? == some '\n' then l else l ++ ['\n'])
    setStatus (if failed then 2 else if found.isEmpty then 1 else 0)

def seq (args : List Octets) : Running Unit := do
  let numbers := args.filterMap Arithmetic.wholeNumber?
  let (first, step, last) : Int × Int × Int := match numbers with
    | [last] => (1, 1, last)
    | [first, last] => (first, 1, last)
    | [first, step, last] => (first, step, last)
    | _ => (1, 1, 0)
  let count := if step = 0 then 0 else ((last - first).fdiv step + 1).toNat
  write 1 ((List.range count).flatMap fun (i : Nat) => Arithmetic.text (first + step * (i : Int)) ++ ['\n'])
  setStatus 0

/-- How much is written by a command that would write without an end. -/
def endless : Nat := 262144

def yes (args : List Octets) : Running Unit := do
  let line := (if args.isEmpty then ['y'] else spaced args) ++ ['\n']
  write 1 (List.replicate (endless / line.length + 1) line).flatten
  setStatus 0

def baseName (path : Octets) : Octets :=
  let trimmed := (path.reverse.dropWhile (· == '/')).reverse
  if trimmed.isEmpty then path.take 1 else (trimmed.reverse.takeWhile (· != '/')).reverse

def folderName (path : Octets) : Octets :=
  let trimmed := (path.reverse.dropWhile (· == '/')).dropWhile (· != '/')
  let folder := (trimmed.dropWhile (· == '/')).reverse
  if trimmed.isEmpty then ['.'] else if folder.isEmpty then ['/'] else folder

def changeDirectory (args : List Octets) : Running Unit := do
  match args with
  | [] => setStatus 0
  | path :: _ =>
    let m ← get
    match m.files.locate (toText path) with
    | .ok place =>
      if m.files.lookup? place = some .directory then
        set { m with files := { m.files with here := place }, status := 0 }
      else
        complain ("cd: can't cd to " ++ quotedName path)
        setStatus 2
    | .error _ =>
      complain ("cd: can't cd to " ++ quotedName path)
      setStatus 2

def printDirectory : Running Unit := do
  write 1 (ofText ("/" ++ String.intercalate "/" (← get).files.here) ++ ['\n'])
  setStatus 0

/-! ## Signals -/

def signals : List (String × Nat) :=
  [("HUP", 1), ("INT", 2), ("QUIT", 3), ("ILL", 4), ("TRAP", 5), ("ABRT", 6), ("BUS", 7), ("FPE", 8), ("KILL", 9),
    ("USR1", 10), ("SEGV", 11), ("USR2", 12), ("PIPE", 13), ("ALRM", 14), ("TERM", 15), ("CHLD", 17), ("CONT", 18),
    ("URG", 23), ("WINCH", 28)]

def unnoticed : List Nat := [0, 17, 18, 23, 28]

/-- The signal with a name in small or large letters, or with a number. -/
def signal? (s : Octets) : Option Nat :=
  if s.isEmpty then none
  else if s.all Char.isDigit then
    let n := Arithmetic.ofDigits 10 s
    if n ≤ 64 then some n else none
  else signals.lookup (String.ofList (s.map Char.toUpper))

/-- What a shell says when a signal ended a shell that it started; of an interrupt and a broken pipe it says
nothing. -/
def lastWord (signal : Nat) : String :=
  match signal with
  | 1 => "Hangup\n"
  | 2 | 13 => ""
  | 3 => "Quit\n"
  | 4 => "Illegal instruction\n"
  | 5 => "Trace/breakpoint trap\n"
  | 6 => "Aborted\n"
  | 7 => "Bus error\n"
  | 8 => "Floating point exception\n"
  | 9 => "Killed\n"
  | 10 => "User defined signal 1\n"
  | 11 => "Segmentation fault\n"
  | 12 => "User defined signal 2\n"
  | 14 => "Alarm clock\n"
  | 15 => "Terminated\n"
  | n => "Signal " ++ toString n ++ "\n"

/-- The shell that a number stands for: the one that runs, or one of those that started it. -/
def shellOf? (own : Nat) (target : Octets) : Option Nat := do
  let n := (← Arithmetic.wholeNumber? target).toNat
  if firstShell ≤ n ∧ n ≤ own then some n else none

def kill (args : List Octets) : Running Unit := do
  let (signal, targets) : Except String Nat × List Octets := match args with
    | ['-', 's'] :: name :: rest =>
      (match signal? name with
      | some n => .ok n
      | none => .error ("invalid signal number or name: " ++ quotedName name), rest)
    | ('-' :: name) :: rest =>
      (match signal? name with
      | some n => .ok n
      | none => .error ("Illegal option -" ++ quotedName (name.take 1)), rest)
    | args => (.ok 15, args)
  match signal with
  | .error text =>
    complain ("kill: " ++ text)
    exit 2
  | .ok n =>
    match targets.findSome? (shellOf? (← get).number) with
    | some shell => if n ∈ unnoticed then setStatus 0 else throw (.killed shell n)
    | none =>
      complain "kill: No such process\n"
      setStatus 1

/-! ## Variables and input -/

/-- The exit status that a text gives: a number, of which the lowest eight bits count. -/
def statusOf (name : String) (args : List Octets) : Running Nat := do
  match args with
  | [] => return (← get).status
  | a :: _ =>
    if a.isEmpty || a.any (!·.isDigit) then
      complain (name ++ ": Illegal number: " ++ quotedName a)
      exit 2
    else return Arithmetic.ofDigits 10 a % 256

/-- Takes one line from the input and spreads it over variables; the last one gets what is left. -/
def readVariables (names : List Octets) : Running Unit := do
  let names := names.filter (· ≠ ['-', 'r'])
  let input := (← get).input
  let line := input.takeWhile (· != '\n')
  modify fun m => { m with input := input.drop (line.length + 1) }
  let rec assign : List Octets → Octets → Running Unit
    | [], _ => pure ()
    | [name], s =>
      setVariable name ((s.dropWhile isBlankOctet).reverse.dropWhile isBlankOctet).reverse
    | name :: rest, s => do
      let s := s.dropWhile isBlankOctet
      let word := s.takeWhile (!isBlankOctet ·)
      setVariable name word
      assign rest (s.drop word.length)
  assign names line
  setStatus (if line.length < input.length then 0 else 1)

/-- Sets the variables that arguments such as `a=b` name. -/
def exportAll (args : List Octets) : Running Unit := do
  args.forM fun a => do
    let name := a.takeWhile (· != '=')
    if name.length < a.length then setVariable name (a.drop (name.length + 1))
  setStatus 0

/-- The commands that are no part of the shell's own language, by name. -/
def builtin? (name : String) (args : List Octets) : Option (Running Unit) :=
  match name with
  | "echo" => some (echo args)
  | "printf" => some (printf args)
  | "true" | ":" | "sleep" | "wait" | "trap" | "umask" | "sync" | "chmod" => some (setStatus 0)
  | "false" => some (setStatus 1)
  | "test" => some (test "test" args)
  | "[" =>
    some (if args.getLast? == some [']'] then test "[" args.dropLast
      else do
        complain "[: missing ]"
        setStatus 2)
  | "cat" => some (cat args)
  | "head" => some (head args)
  | "tail" => some (tail args)
  | "wc" => some (wc args)
  | "tr" => some (tr args)
  | "sort" => some (sort args)
  | "grep" => some (grep args)
  | "seq" => some (seq args)
  | "yes" => some (yes args)
  | "cd" => some (changeDirectory args)
  | "pwd" => some printDirectory
  | "basename" => some do
    write 1 (baseName (args.headD []) ++ ['\n'])
    setStatus 0
  | "dirname" => some do
    write 1 (folderName (args.headD []) ++ ['\n'])
    setStatus 0
  | "kill" => some (kill args)
  | "read" => some (readVariables args)
  | "export" | "readonly" | "local" => some (exportAll args)
  | "unset" => some do
    (args.filter (·.head? != some '-')).forM unsetVariable
    setStatus 0
  | "exit" => some do exit (← statusOf "exit" args)
  | "return" => some do
    setStatus (← statusOf "return" args)
    throw .returns
  | "break" => some (throw (.breaks (match args with
    | n :: _ => Arithmetic.ofDigits 10 n
    | [] => 1)))
  | "continue" => some (throw (.continues (match args with
    | n :: _ => Arithmetic.ofDigits 10 n
    | [] => 1)))
  | "shift" => some do
    modify fun m => { m with arguments := m.arguments.drop (match args with
      | n :: _ => Arithmetic.ofDigits 10 n
      | [] => 1) }
    setStatus 0
  | "set" => some do
    match args with
    | ['-', 'e'] :: _ => modify fun m => { m with strict := true }
    | ['+', 'e'] :: _ => modify fun m => { m with strict := false }
    | ['-', '-'] :: rest => modify fun m => { m with arguments := rest }
    | ('-' :: _) :: _ | ('+' :: _) :: _ | [] => pure ()
    | rest => modify fun m => { m with arguments := rest }
    setStatus 0
  | _ => none

end BucketBench.Shell
