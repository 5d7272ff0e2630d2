import BucketBench.Shell.Builtin
import BucketBench.Shell.Reader

set_option autoImplicit false

/-!
# Running shell commands

The evaluator of scripts. Every step down into a command, and every turn of a loop, uses up one unit of fuel; a
script that uses it all up is ended. `run` starts with empty files and gives what the command leaves behind.
-/

namespace BucketBench.Shell

open Running

/-- The value of a parameter, variables and special ones alike. -/
def parameterValue (name : Octets) : Running (Option Octets) := do
  let m ← get
  match name with
  | ['?'] => return some (Arithmetic.text m.status)
  | ['$'] => return some (Arithmetic.text m.number)
  | ['#'] => return some (Arithmetic.text m.arguments.length)
  | ['@'] | ['*'] => return some (spaced m.arguments)
  | ['0'] => return some ['s', 'h']
  | ['!'] | ['-'] => return some []
  | c :: _ => if c.isDigit then return m.arguments[Arithmetic.ofDigits 10 name - 1]? else valueOf name
  | [] => return none

def pieceOf (quoted : Bool) (value : Octets) : Piece := if quoted then .fixed true value else .loose value

/-- What a descriptor leads to when it is made to lead to the same as another one. -/
def setSink (descriptor : Nat) (sink : Sink) (m : Machine) : Machine :=
  { m with sinks := (descriptor, sink) :: m.sinks.filter (·.1 ≠ descriptor) }

def openSink (descriptor : Nat) (append : Bool) (path : Octets) (m : Machine) : Except String Machine :=
  let text := toText path
  match text with
  | "/dev/null" => .ok (setSink descriptor .nowhere m)
  | "/dev/stdout" | "/dev/fd/1" => .ok (setSink descriptor ((m.sinks.lookup 1).getD .nowhere) m)
  | "/dev/stderr" | "/dev/fd/2" => .ok (setSink descriptor ((m.sinks.lookup 2).getD .nowhere) m)
  | _ =>
    let before := if append then ((m.files.read text).toOption.map Contents.toBytes).getD [] else []
    match m.files.write text (.bytes before) with
    | .ok files => .ok (setSink descriptor (.file text) { m with files := files })
    | .error .isADirectory => .error ("cannot create " ++ String.ofList path ++ ": Is a directory")
    | .error _ => .error ("cannot create " ++ String.ofList path ++ ": Directory nonexistent")

def openInput (path : Octets) (m : Machine) : Except String Machine :=
  if toText path = "/dev/null" then .ok { m with input := [] }
  else
    match m.files.read (toText path) with
    | .ok c => .ok { m with input := octets c.toBytes }
    | .error _ => .error ("cannot open " ++ String.ofList path ++ ": No such file")

def copySink (descriptor : Nat) (other : Octets) (m : Machine) : Except String Machine :=
  if other = ['-'] then .ok { m with sinks := m.sinks.filter (·.1 ≠ descriptor) }
  else if other.isEmpty || other.any (!·.isDigit) then .error "Bad fd number"
  else
    match m.sinks.lookup (Arithmetic.ofDigits 10 other) with
    | some sink => .ok (setSink descriptor sink m)
    | none => .error (String.ofList other ++ ": Bad file descriptor")

/-- Commands that end the shell when one of their redirections fails. -/
def isSpecial (name : Octets) : Bool :=
  String.ofList name ∈ [":", ".", "eval", "exec", "exit", "export", "readonly", "return", "set", "shift", "trap",
    "unset", "break", "continue"]

def programFolders : List Octets := ["/bin".toList, "/usr/bin".toList]

def isCommand (m : Machine) (name : Octets) : Bool :=
  (m.functions.lookup name).isSome || (builtin? (String.ofList name) []).isSome
    || String.ofList name ∈ ["eval", "command", "exec", "sh"]

mutual

def expand : Nat → Word → Running (List Piece)
  | 0, _ => exit 2
  | _, [] => return []
  | fuel + 1, part :: rest => do
    let pieces ← expandPart fuel part
    return pieces ++ (← expand fuel rest)

def expandPart : Nat → Part → Running (List Piece)
  | 0, _ => exit 2
  | _, .text quoted content => return [.fixed quoted content]
  | fuel + 1, .number quoted expression => do
    let text := joined (← expand fuel expression)
    let m ← get
    match Arithmetic.evaluate m.bindings text with
    | .ok (n, bindings) =>
      set { m with bindings := bindings }
      return [pieceOf quoted (Arithmetic.text n)]
    | .error fault =>
      complain ("arithmetic expression: " ++ fault.message text)
      exit 2
  | fuel + 1, .output quoted script => do
    let s ← captured (runAll fuel script)
    return [pieceOf quoted (s.reverse.dropWhile (· == '\n')).reverse]
  | fuel + 1, .parameter quoted name change operand => do
    let value ← parameterValue name
    let missing (orEmpty : Bool) : Bool := match value with
      | none => true
      | some v => orEmpty && v.isEmpty
    let plain : List Piece :=  [pieceOf quoted (value.getD [])]
    let m ← get
    match change with
    | none =>
      if name = ['@'] then return (m.arguments.map (pieceOf quoted)).intersperse .cut
      else return plain
    | some .length => return [pieceOf quoted (Arithmetic.text (value.getD []).length)]
    | some (.default orEmpty) => if missing orEmpty then expand fuel operand else return plain
    | some (.alternative unlessEmpty) => if missing unlessEmpty then return [] else expand fuel operand
    | some (.assign orEmpty) =>
      if missing orEmpty then
        let v := joined (← expand fuel operand)
        setVariable name v
        return [pieceOf quoted v]
      else return plain
    | some (.cutFront longest) =>
      return [pieceOf quoted (Shell.cutFront longest (patternOf (← expand fuel operand)) (value.getD []))]
    | some (.cutBack longest) =>
      return [pieceOf quoted (Shell.cutBack longest (patternOf (← expand fuel operand)) (value.getD []))]

/-- Opens what redirections ask for, from the left; tells whether all could be opened. -/
def redirect : Nat → List Redirect → Running Bool
  | 0, _ => exit 2
  | _, [] => return true
  | fuel + 1, r :: rest => do
    let opened : Except String Machine ← match r with
      | .toFile descriptor append path => do
        let path := joined (← expand fuel path)
        pure (openSink descriptor append path (← get))
      | .toDescriptor descriptor other => do
        let other := joined (← expand fuel other)
        pure (copySink descriptor other (← get))
      | .fromFile path => do
        let path := joined (← expand fuel path)
        pure (openInput path (← get))
      | .fromText content => do
        let text := joined (← expand fuel content)
        pure (.ok { (← get) with input := text })
    match opened with
    | .ok m =>
      set m
      redirect fuel rest
    | .error text =>
      complain text
      setStatus 2
      return false

def runWords : Nat → List Octets → Running Unit
  | 0, _ => exit 2
  | _, [] => return ()
  | fuel + 1, name :: args => do
    let m ← get
    match m.functions.lookup name with
    | some body =>
      set { m with arguments := args }
      try run fuel body
      catch e => if e != .returns then throw e
      modify fun after => { after with arguments := m.arguments }
    | none =>
      match String.ofList name with
      | "eval" => runText fuel (spaced args)
      | "command" => match args with
        | ['-', 'v'] :: name :: _ => do
          let found := isCommand m name
          if found then write 1 (name ++ ['\n'])
          setStatus (if found then 0 else 127)
        | _ => runWords fuel args
      | "exec" => if args.isEmpty then return () else do
        runWords fuel args
        throw .exits
      | "sh" => match args with
        | ['-', 'c'] :: text :: _ =>
          let number := m.number + 1
          try
            inSubshell do
              modify fun m =>
                { m with functions := [], arguments := [], strict := false, status := 0, number := number }
              runText fuel text
          catch e =>
            match e with
            | .killed shell signal =>
              if shell = number then
                write 2 (ofText (lastWord signal))
                setStatus (128 + signal)
              else throw e
            | _ => throw e
        | _ => setStatus 0
      | text =>
        match builtin? text args with
        | some steps => steps
        | none =>
          if folderName name ∈ programFolders && isCommand m (baseName name) then
            runWords fuel (baseName name :: args)
          else if m.files.exists? (toText name) && name.contains '/' then
            complain (text ++ ": Permission denied")
            setStatus 126
          else
            complain (text ++ ": not found")
            setStatus 127

/-- Reads and runs a text, one line after the other. -/
def runText : Nat → Octets → Running Unit
  | 0, _ => exit 2
  | fuel + 1, text => do
    let (lines, fault) := read text
    runAll fuel lines.flatten
    match fault with
    | none => return ()
    | some (line, fault) =>
      modify fun m => { m with line := line }
      complain ("Syntax error: " ++ fault.message)
      exit 2

def run : Nat → Command → Running Unit
  | 0, _ => exit 2
  | fuel + 1, command => do
    match command with
    | .simple line assignments words redirects =>
      modify fun m => { m with line := line }
      let expanded ← words.mapM fun w => do return fields (← expand fuel w)
      let args := expanded.flatten
      let assigned ← assignments.mapM fun (name, value) => do return (name, joined (← expand fuel value))
      match args with
      | [] =>
        if !(words ++ assignments.map (·.2)).any (·.any Part.isOutput) then setStatus 0
        locally (redirects.any Redirect.isInput) do
          let _ ← redirect fuel redirects
        assigned.forM fun (name, value) => setVariable name value
      | name :: _ =>
        let before := (← get).bindings
        if name = "exec".toList && args.length = 1 then
          if !(← redirect fuel redirects) then exit 2
          setStatus 0
        else
          locally (redirects.any Redirect.isInput) do
            if ← redirect fuel redirects then
              assigned.forM fun (name, value) => setVariable name value
              runWords fuel args
            else if isSpecial name then exit 2
        if !assigned.isEmpty && !isSpecial name then modify fun m => { m with bindings := before }
      let m ← get
      if m.strict && !m.tested && m.status ≠ 0 then throw .exits
    | .pipeline stages => runStages fuel stages
    | .negated command =>
      asCondition (run fuel command)
      let m ← get
      setStatus (if m.status = 0 then 1 else 0)
    | .andThen first second =>
      asCondition (run fuel first)
      if (← get).status = 0 then run fuel second
    | .orElse first second =>
      asCondition (run fuel first)
      if (← get).status ≠ 0 then run fuel second
    | .background command =>
      inSubshell (run fuel command)
      setStatus 0
    | .group body => runAll fuel body
    | .subshell body =>
      inSubshell (runAll fuel body)
      let m ← get
      if m.strict && !m.tested && m.status ≠ 0 then throw .exits
    | .redirected command redirects =>
      locally (redirects.any Redirect.isInput) do
        if ← redirect fuel redirects then run fuel command
    | .ifThen condition body otherwise =>
      asCondition (runAll fuel condition)
      if (← get).status = 0 then runAll fuel body
      else
        setStatus 0
        runAll fuel otherwise
    | .loop whileTrue condition body => runLoop fuel whileTrue condition body 0
    | .forEach name words body =>
      let expanded ← words.mapM fun w => do return fields (← expand fuel w)
      setStatus 0
      runEach fuel name expanded.flatten body
    | .select word branches =>
      let value := joined (← expand fuel word)
      setStatus 0
      runBranches fuel value branches
    | .define name body =>
      modify fun m => { m with functions := (name, body) :: m.functions }
      setStatus 0

def runAll : Nat → Script → Running Unit
  | 0, _ => exit 2
  | _, [] => return ()
  | fuel + 1, command :: rest => do
    run fuel command
    runAll fuel rest

/-- Runs the stages of a pipeline, each on what the one before it wrote. -/
def runStages : Nat → List Command → Running Unit
  | 0, _ => exit 2
  | _, [] => return ()
  | fuel + 1, [last] => inSubshell (run fuel last)
  | fuel + 1, stage :: rest => do
    let output ← captured (run fuel stage)
    let before := (← get).input
    modify fun m => { m with input := output }
    runStages fuel rest
    modify fun m => { m with input := before }

/-- Runs a body as long as a condition holds, or fails. The status is that of the last turn. -/
def runLoop : Nat → Bool → Script → Script → Nat → Running Unit
  | 0, _, _, _, _ => exit 2
  | fuel + 1, whileTrue, condition, body, last => do
    asCondition (runAll fuel condition)
    if ((← get).status == 0) != whileTrue then setStatus last
    else if ← runTurn fuel body then
      runLoop fuel whileTrue condition body (← get).status

/-- Runs the body of a loop once; tells whether the loop goes on. -/
def runTurn : Nat → Script → Running Bool
  | 0, _ => exit 2
  | fuel + 1, body => do
    try
      runAll fuel body
      return true
    catch e =>
      match e with
      | .breaks n =>
        setStatus 0
        if n ≤ 1 then return false else throw (.breaks (n - 1))
      | .continues n =>
        setStatus 0
        if n ≤ 1 then return true else throw (.continues (n - 1))
      | e => throw e

def runEach : Nat → Octets → List Octets → Script → Running Unit
  | 0, _, _, _ => exit 2
  | _, _, [], _ => return ()
  | fuel + 1, name, value :: rest, body => do
    setVariable name value
    if ← runTurn fuel body then runEach fuel name rest body

def runBranches : Nat → Octets → List (List Word × Script) → Running Unit
  | 0, _, _ => exit 2
  | _, _, [] => return ()
  | fuel + 1, value, (patterns, body) :: rest => do
    let found ← patterns.anyM fun w => do return matchesWhole (patternOf (← expand fuel w)) value
    if found then runAll fuel body else runBranches fuel value rest

end

/-- How many steps a command may take for each of its bytes, and at least. -/
def stepsPerByte : Nat := 64

def minimalSteps : Nat := 100000

/-- The working directory of a command, and the directories that every system has. -/
def emptyFiles : Files := ⟨[(["dev"], .directory), (["tmp"], .directory), (["w"], .directory)], ["w"]⟩

/-- Runs a command with `sh -c`. -/
def runCommand (command : String) : Except Error CommandOutput :=
  if '\x00' ∈ command.toList then
    .error (.command ("failed to spawn '" ++ command ++ "': nul byte found in provided data"))
  else
    let text := ofText command
    let start : Machine := { files := emptyFiles }
    let (r, m) := (runText (minimalSteps + stepsPerByte * text.length) text).run.run start
    let captures := m.captures.map toText
    let (output, errors) := ((captures[0]?).getD "", (captures[1]?).getD "")
    match r with
    | .error (.killed ..) => .ok ⟨false, none, output, errors⟩
    | _ => .ok ⟨m.status == 0, some m.status, output, errors⟩

end BucketBench.Shell
