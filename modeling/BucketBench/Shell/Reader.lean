import BucketBench.Shell.Script

set_option autoImplicit false

/-!
# Reading shell scripts

Scripts are read from the left, one line of commands at a time, so that the lines before a fault can still be
run. Every reader gives what it read and the text that follows. The number that goes down is the length of the
whole text at the start: each step takes at least one byte.
-/

namespace BucketBench.Shell

/-- Where reading stands: the text ahead and the line it is on. -/
structure Cursor where
  ahead : Octets
  line : Nat

/-- The cursor at a later text; the lines that are gone from the text were passed. -/
def Cursor.moveTo (c : Cursor) (rest : Octets) : Cursor :=
  ⟨rest, c.line + (c.ahead.count '\n' - rest.count '\n')⟩

def isNameStart (c : Char) : Bool := c.isAlpha || c == '_'

def isNameChar (c : Char) : Bool := c.isAlphanum || c == '_'

def endsWord (c : Char) : Bool := c ∈ [' ', '\t', '\n', ';', '&', '|', '<', '>', '(', ')']

/-- A text without the blanks, continued lines and comments in front. -/
def skipBlanks : Octets → Octets
  | ' ' :: r => skipBlanks r
  | '\t' :: r => skipBlanks r
  | '\\' :: '\n' :: r => skipBlanks r
  | '#' :: r => r.dropWhile (· != '\n')
  | r => r

/-- The same, and without line ends. -/
def skipLines (fuel : Nat) (s : Octets) : Octets :=
  match fuel, skipBlanks s with
  | fuel + 1, '\n' :: r => skipLines fuel r
  | _, r => r

/-- The plain word ahead, which may be a reserved one. -/
def plainWord (s : Octets) : Octets :=
  let w := s.takeWhile fun c => !endsWord c
  if w.any (fun c => c ∈ ['\'', '"', '\\', '$', '\x60']) then [] else w

def closers : List Octets :=
  ["then", "elif", "else", "fi", "do", "done", "esac", "\x7d"].map String.toList

def tokenText (s : Octets) : String :=
  match s with
  | [] => "end of file"
  | '\n' :: _ => "newline"
  | '&' :: '&' :: _ => "\"&&\""
  | '|' :: '|' :: _ => "\"||\""
  | ';' :: ';' :: _ => "\";;\""
  | '<' :: _ | '>' :: _ => "redirection"
  | c :: _ =>
    if endsWord c then "\"" ++ String.singleton c ++ "\""
    else if plainWord s ∈ closers then "\"" ++ String.ofList (plainWord s) ++ "\""
    else "word"

/-- Faults name a missing reserved word after what stands in its place. -/
def expect (word : String) (s : Octets) : Except SyntaxFault Octets :=
  let s := skipBlanks s
  if word.toList.all endsWord then
    if s.take word.length = word.toList then .ok (s.drop word.length) else .error (.expecting (tokenText s) word)
  else if plainWord s = word.toList then .ok (s.drop word.length)
  else .error (.expecting (tokenText s) word)

/-- A parameter's name: letters and digits, one digit, or one special character. -/
def parameterName (s : Octets) : Octets :=
  match s with
  | c :: _ =>
    if isNameStart c then s.takeWhile isNameChar
    else if c.isDigit || c ∈ ['?', '$', '#', '@', '*', '!', '-'] then [c]
    else []
  | [] => []

def changeOf (s : Octets) : Option (Change × Octets) :=
  match s with
  | ':' :: '-' :: r => some (.default true, r)
  | '-' :: r => some (.default false, r)
  | ':' :: '=' :: r => some (.assign true, r)
  | '=' :: r => some (.assign false, r)
  | ':' :: '+' :: r => some (.alternative true, r)
  | '+' :: r => some (.alternative false, r)
  | '#' :: '#' :: r => some (.cutFront true, r)
  | '#' :: r => some (.cutFront false, r)
  | '%' :: '%' :: r => some (.cutBack true, r)
  | '%' :: r => some (.cutBack false, r)
  | _ => none

/-- The text between backquotes, with its escapes taken out. -/
def backquoted : Octets → Option (Octets × Octets)
  | [] => none
  | '\x60' :: r => some ([], r)
  | '\\' :: c :: r =>
    (backquoted r).map fun (a, b) => (if c ∈ ['\x60', '\\', '$'] then c :: a else '\\' :: c :: a, b)
  | c :: r => (backquoted r).map fun (a, b) => (c :: a, b)

inductive Stop where
  | word
  | quote
  | brace (quoted : Bool)
  | arithmetic (depth : Nat)

def Stop.quoted : Stop → Bool
  | .word => false
  | .brace quoted => quoted
  | _ => true

def descriptorOf (s : Octets) : Option (Nat × Octets) :=
  let digits := s.takeWhile Char.isDigit
  let rest := s.drop digits.length
  match rest with
  | '>' :: _ => some (if digits.isEmpty then 1 else digits.foldl (fun n c => 10 * n + (c.toNat - 48)) 0, rest)
  | '<' :: _ => some (if digits.isEmpty then 0 else digits.foldl (fun n c => 10 * n + (c.toNat - 48)) 0, rest)
  | _ => none

def assignment? (s : Octets) : Option (Octets × Octets) :=
  let name := s.takeWhile isNameChar
  match name, s.drop name.length with
  | c :: _, '=' :: rest => if isNameStart c then some (name, rest) else none
  | _, _ => none

/-- The lines of a here-document up to the line that ends it, and the text behind that line. -/
def hereLines (stripTabs : Bool) (delimiter : Octets) : Nat → Octets → Octets × Octets
  | 0, s => ([], s)
  | _, [] => ([], [])
  | fuel + 1, s =>
    let line := s.takeWhile (· != '\n')
    let rest := s.drop (line.length + 1)
    let line := if stripTabs then line.dropWhile (· == '\t') else line
    if line = delimiter then ([], rest)
    else
      let (lines, rest) := hereLines stripTabs delimiter fuel rest
      (line ++ '\n' :: lines, rest)

mutual

/-- The parts up to a stop, and the text from the stop on. -/
def readParts (total : Nat) : Nat → Stop → Octets → Except SyntaxFault (Word × Octets)
  | 0, _, s => .ok ([], s)
  | fuel + 1, stop, s =>
    let add (p : Part) (rest : Octets) (stop : Stop) : Except SyntaxFault (Word × Octets) := do
      let (parts, rest) ← readParts total fuel stop rest
      return (p :: parts, rest)
    match s, stop with
    | [], .word => .ok ([], [])
    | [], .quote => .error .unterminatedQuote
    | [], .brace _ => .error .missingBrace
    | [], .arithmetic _ => .error .missingParentheses
    | '"' :: _, .quote => .ok ([], s)
    | '}' :: _, .brace _ => .ok ([], s)
    | ')' :: ')' :: _, .arithmetic 0 => .ok ([], s)
    | ')' :: r, .arithmetic depth => add (.text true [')']) r (.arithmetic (depth - 1))
    | '(' :: r, .arithmetic depth => add (.text true ['(']) r (.arithmetic (depth + 1))
    | '\\' :: '\n' :: r, stop => readParts total fuel stop r
    | '\\' :: c :: r, stop =>
      if stop.quoted && !(c ∈ ['$', '\x60', '"', '\\', '}']) then add (.text true ['\\', c]) r stop
      else add (.text true [c]) r stop
    | '$' :: '(' :: '(' :: r, stop => do
      let (inner, rest) ← readParts total fuel (.arithmetic 0) r
      add (.number stop.quoted inner) (rest.drop 2) stop
    | '$' :: '(' :: r, stop => do
      let (script, rest) ← readList total fuel ⟨r, 1⟩
      add (.output stop.quoted script) (← expect ")" (skipLines rest.ahead.length rest.ahead)) stop
    | '$' :: '{' :: '#' :: r, stop =>
      let name := parameterName r
      match name, r.drop name.length with
      | _ :: _, '}' :: rest => add (.parameter stop.quoted name (some .length) []) rest stop
      | _, rest =>
        match rest with
        | '}' :: rest => add (.parameter stop.quoted ['#'] none []) rest stop
        | _ => .error .missingBrace
    | '$' :: '{' :: r, stop =>
      let name := if (r.takeWhile Char.isDigit).isEmpty then parameterName r else r.takeWhile Char.isDigit
      match r.drop name.length with
      | '}' :: rest => add (.parameter stop.quoted name none []) rest stop
      | rest =>
        match changeOf rest with
        | none => .error .missingBrace
        | some (change, rest) => do
          let (operand, rest) ← readParts total fuel (.brace stop.quoted) rest
          add (.parameter stop.quoted name (some change) operand) (rest.drop 1) stop
    | '$' :: r, stop =>
      let name := parameterName r
      if name.isEmpty then add (.text stop.quoted ['$']) r stop
      else add (.parameter stop.quoted name none []) (r.drop name.length) stop
    | '\x60' :: r, stop =>
      match backquoted r with
      | none => .error .unterminatedBackquote
      | some (inner, rest) => do
        let (script, _) ← readList total fuel ⟨inner, 1⟩
        add (.output stop.quoted script) rest stop
    | c :: r, stop =>
      if stop.quoted then add (.text true [c]) r stop
      else if c = '\'' then
        let inner := r.takeWhile (· != '\'')
        match r.drop inner.length with
        | _ :: rest => add (.text true inner) rest stop
        | [] => .error .unterminatedQuote
      else if c = '"' then do
        let (inner, rest) ← readParts total fuel .quote r
        let (parts, rest) ← readParts total fuel stop (rest.drop 1)
        return ((if inner.isEmpty then [.text true []] else inner) ++ parts, rest)
      else
        match stop with
        | .word => if endsWord c then .ok ([], s) else add (.text false [c]) r stop
        | _ => add (.text false [c]) r stop

/-- One redirection, behind its descriptor. -/
def readRedirect (total : Nat) : Nat → Nat → Octets → Except SyntaxFault (Redirect × Octets)
  | 0, _, s => .error (.unexpected (tokenText s))
  | fuel + 1, descriptor, s => do
    let word (s : Octets) : Except SyntaxFault (Word × Octets) := do
      let s := skipBlanks s
      let (w, rest) ← readParts total fuel .word s
      if w.isEmpty then .error (.unexpected (tokenText s)) else .ok (w, rest)
    match s with
    | '>' :: '>' :: r => (word r).map fun (w, rest) => (.toFile descriptor true w, rest)
    | '>' :: '&' :: r => (word r).map fun (w, rest) => (.toDescriptor descriptor w, rest)
    | '>' :: '|' :: r => (word r).map fun (w, rest) => (.toFile descriptor false w, rest)
    | '>' :: r => (word r).map fun (w, rest) => (.toFile descriptor false w, rest)
    | '<' :: '<' :: r => do
      let (strip, r) := match r with
        | '-' :: r => (true, r)
        | r => (false, r)
      let (delimiter, rest) ← word r
      let exact := delimiter.any fun p => match p with
        | .text quoted _ => quoted
        | _ => false
      let plain := (delimiter.map fun p => match p with
        | .text _ c => c
        | _ => []).flatten
      let before := rest.takeWhile (· != '\n')
      let (content, after) := hereLines strip plain s.length (rest.drop (before.length + 1))
      let parts ← if exact then .ok [.text true content]
        else (readParts total fuel (.brace true) (content ++ ['}'])).map (·.1)
      return (.fromText parts, before ++ '\n' :: after)
    | '<' :: r => (word r).map fun (w, rest) => (.fromFile w, rest)
    | _ => .error (.unexpected (tokenText s))

def readRedirects (total : Nat) : Nat → Octets → Except SyntaxFault (List Redirect × Octets)
  | 0, s => .ok ([], s)
  | fuel + 1, s =>
    match descriptorOf (skipBlanks s) with
    | none => .ok ([], s)
    | some (descriptor, rest) => do
      let (r, rest) ← readRedirect total fuel descriptor rest
      let (rs, rest) ← readRedirects total fuel rest
      return (r :: rs, rest)

/-- The words, assignments and redirections of a simple command. -/
def readSimple (total line : Nat) : Nat → List (Octets × Word) → List Word → List Redirect → Octets →
    Except SyntaxFault (Command × Octets)
  | 0, as, ws, rs, s => .ok (.simple line as ws rs, s)
  | fuel + 1, as, ws, rs, s =>
    let s := skipBlanks s
    match descriptorOf s with
    | some (descriptor, rest) => do
      let (r, rest) ← readRedirect total fuel descriptor rest
      readSimple total line fuel as ws (rs ++ [r]) rest
    | none =>
      match (if ws.isEmpty then assignment? s else none) with
      | some (name, rest) => do
        let (value, rest) ← readParts total fuel .word rest
        readSimple total line fuel (as ++ [(name, value)]) ws rs rest
      | none => do
        let (w, rest) ← readParts total fuel .word s
        if w.isEmpty then
          match ws, rest with
          | [[.text false _]], '(' :: r => .error (.expecting (tokenText r) ")")
          | _, '(' :: _ => .error (.unexpected "\"(\"")
          | _, _ => .ok (.simple line as ws rs, rest)
        else readSimple total line fuel as (ws ++ [w]) rs rest

def readWords (total : Nat) : Nat → Octets → Except SyntaxFault (List Word × Octets)
  | 0, s => .ok ([], s)
  | fuel + 1, s => do
    let s := skipBlanks s
    let (w, rest) ← readParts total fuel .word s
    if w.isEmpty then return ([], s)
    let (ws, rest) ← readWords total fuel rest
    return (w :: ws, rest)

/-- The rest of a choice, from its condition on. -/
def readIf (total : Nat) : Nat → Cursor → Except SyntaxFault (Command × Octets)
  | 0, c => .error (.unexpected (tokenText c.ahead))
  | fuel + 1, c => do
    let (condition, rest) ← readList total fuel c
    let c := c.moveTo (← expect "then" rest.ahead)
    let (body, rest) ← readList total fuel c
    let s := skipBlanks rest.ahead
    if plainWord s = "elif".toList then
      let (next, rest) ← readIf total fuel (c.moveTo (s.drop 4))
      return (.ifThen condition body [next], rest)
    else if plainWord s = "else".toList then
      let (otherwise, rest) ← readList total fuel (c.moveTo (s.drop 4))
      return (.ifThen condition body otherwise, ← expect "fi" rest.ahead)
    else return (.ifThen condition body [], ← expect "fi" s)

def readBranches (total : Nat) : Nat → Cursor →
    Except SyntaxFault (List (List Word × Script) × Octets)
  | 0, c => .error (.unexpected (tokenText c.ahead))
  | fuel + 1, c => do
    let s := skipLines c.ahead.length c.ahead
    if plainWord s = "esac".toList then return ([], s.drop 4)
    let s := match s with
      | '(' :: r => skipBlanks r
      | s => s
    let (patterns, rest) ← readPatterns total fuel s
    let c := c.moveTo (← expect ")" rest)
    let (body, rest) ← readList total fuel c
    let s := skipLines rest.ahead.length rest.ahead
    match s with
    | ';' :: ';' :: r =>
      let (more, rest) ← readBranches total fuel (c.moveTo r)
      return ((patterns, body) :: more, rest)
    | s => return ([(patterns, body)], ← expect "esac" s)

def readPatterns (total : Nat) : Nat → Octets → Except SyntaxFault (List Word × Octets)
  | 0, s => .error (.unexpected (tokenText s))
  | fuel + 1, s => do
    let s := skipBlanks s
    let (w, rest) ← readParts total fuel .word s
    if w.isEmpty then throw (.unexpected (tokenText s))
    match skipBlanks rest with
    | '|' :: r =>
      let (ws, rest) ← readPatterns total fuel r
      return (w :: ws, rest)
    | rest => return ([w], rest)

/-- One command, without what joins it to others. -/
def readCommand (total : Nat) : Nat → Cursor → Except SyntaxFault (Command × Octets)
  | 0, c => .error (.unexpected (tokenText c.ahead))
  | fuel + 1, c => do
    let s := skipBlanks c.ahead
    let c := c.moveTo s
    let finish (command : Command) (rest : Octets) : Except SyntaxFault (Command × Octets) := do
      let (rs, rest) ← readRedirects total fuel rest
      return (if rs.isEmpty then command else .redirected command rs, rest)
    let word := String.ofList (plainWord s)
    let behind := c.moveTo (s.drop word.length)
    match word with
    | "\x7b" =>
      let (body, rest) ← readList total fuel behind
      finish (.group body) (← expect "\x7d" rest.ahead)
    | "if" =>
      let (command, rest) ← readIf total fuel behind
      finish command rest
    | "while" | "until" =>
      let (condition, rest) ← readList total fuel behind
      let (body, rest) ← readList total fuel (c.moveTo (← expect "do" rest.ahead))
      finish (.loop (word == "while") condition body) (← expect "done" rest.ahead)
    | "for" =>
      let s := skipBlanks behind.ahead
      let name := s.takeWhile isNameChar
      if !((name.head?).map isNameStart).getD false then throw .badLoopVariable
      let s := skipBlanks (s.drop name.length)
      let (words, rest) ←
        if plainWord s = "in".toList then readWords total fuel (s.drop 2)
        else pure ([[.parameter true ['@'] none []]], s)
      let rest := match skipBlanks rest with
        | ';' :: r => r
        | r => r
      let (body, rest) ← readList total fuel (c.moveTo (← expect "do" (skipLines rest.length rest)))
      finish (.forEach name words body) (← expect "done" rest.ahead)
    | "case" =>
      let s := skipBlanks behind.ahead
      let (w, rest) ← readParts total fuel .word s
      if w.isEmpty then throw (.expectingWord (tokenText s))
      let (branches, rest) ← readBranches total fuel (c.moveTo (← expect "in" (skipLines rest.length rest)))
      finish (.select w branches) rest
    | _ =>
      match s with
      | '(' :: r =>
        let (body, rest) ← readList total fuel (c.moveTo r)
        finish (.subshell body) (← expect ")" rest.ahead)
      | _ =>
        if plainWord s ∈ closers then throw (.unexpected (tokenText s))
        let name := s.takeWhile isNameChar
        match name, skipBlanks (s.drop name.length) with
        | n :: _, '(' :: r =>
          match skipBlanks r with
          | ')' :: r =>
            if !isNameStart n then throw .badFunctionName
            let (body, rest) ← readCommand total fuel (c.moveTo (skipLines r.length r))
            return (.define name body, rest)
          | r => throw (.expecting (tokenText r) ")")
        | _, _ =>
          let (command, rest) ← readSimple total c.line fuel [] [] [] s
          match command with
          | .simple _ [] [] [] => throw (.unexpected (tokenText rest))
          | _ => return (command, rest)

def readStages (total : Nat) : Nat → Cursor → Except SyntaxFault (List Command × Octets)
  | 0, c => .error (.unexpected (tokenText c.ahead))
  | fuel + 1, c => do
    let (command, rest) ← readCommand total fuel c
    match skipBlanks rest with
    | '|' :: '|' :: _ => return ([command], rest)
    | '|' :: r =>
      let (more, rest) ← readStages total fuel (c.moveTo (skipLines r.length r))
      return (command :: more, rest)
    | _ => return ([command], rest)

/-- A pipeline, perhaps negated. -/
def readPipeline (total : Nat) : Nat → Cursor → Except SyntaxFault (Command × Octets)
  | 0, c => .error (.unexpected (tokenText c.ahead))
  | fuel + 1, c => do
    let s := skipBlanks c.ahead
    if plainWord s = ['!'] then
      let (command, rest) ← readPipeline total fuel (c.moveTo (s.drop 1))
      return (.negated command, rest)
    match ← readStages total fuel (c.moveTo s) with
    | ([command], rest) => return (command, rest)
    | (commands, rest) => return (.pipeline commands, rest)

/-- Pipelines joined by `&&` and `||`, from the left. -/
def readJoined (total : Nat) : Nat → Option (Bool × Command) → Cursor → Except SyntaxFault (Command × Octets)
  | 0, _, c => .error (.unexpected (tokenText c.ahead))
  | fuel + 1, before, c => do
    let (command, rest) ← readPipeline total fuel c
    let command := match before with
      | none => command
      | some (true, first) => .andThen first command
      | some (false, first) => .orElse first command
    match skipBlanks rest with
    | '&' :: '&' :: r => readJoined total fuel (some (true, command)) (c.moveTo (skipLines r.length r))
    | '|' :: '|' :: r => readJoined total fuel (some (false, command)) (c.moveTo (skipLines r.length r))
    | _ => return (command, rest)

def readList (total : Nat) : Nat → Cursor → Except SyntaxFault (Script × Cursor)
  | 0, c => .error (.unexpected (tokenText c.ahead))
  | fuel + 1, c => do
    let s := skipLines c.ahead.length c.ahead
    let c := c.moveTo s
    match s with
    | [] | ')' :: _ | ';' :: ';' :: _ => return ([], c)
    | _ =>
      if plainWord s ∈ closers then return ([], c)
      let (command, rest) ← readJoined total fuel none c
      match skipBlanks rest with
      | ';' :: ';' :: r => return ([command], c.moveTo (';' :: ';' :: r))
      | ';' :: r =>
        let (more, c) ← readList total fuel (c.moveTo r)
        return (command :: more, c)
      | '&' :: r =>
        let (more, c) ← readList total fuel (c.moveTo r)
        return (.background command :: more, c)
      | '\n' :: r =>
        let (more, c) ← readList total fuel (c.moveTo r)
        return (command :: more, c)
      | r => return ([command], c.moveTo r)

end

/-- The commands on the next line, joined by semicolons. -/
def readLine (total : Nat) : Nat → Cursor → Except SyntaxFault (Script × Cursor)
  | 0, c => .error (.unexpected (tokenText c.ahead))
  | fuel + 1, c => do
    let (command, rest) ← readJoined total fuel none c
    let next (c : Cursor) : Except SyntaxFault (Script × Cursor) :=
      match skipBlanks c.ahead with
      | [] | '\n' :: _ => .ok ([], c)
      | _ => readLine total fuel c
    match skipBlanks rest with
    | ';' :: ';' :: _ => .error (.unexpected "\";;\"")
    | ';' :: r =>
      let (more, c) ← next (c.moveTo r)
      return (command :: more, c)
    | '&' :: r =>
      let (more, c) ← next (c.moveTo r)
      return (.background command :: more, c)
    | r =>
      match r with
      | [] | '\n' :: _ => return ([command], c.moveTo r)
      | _ => throw (.unexpected (tokenText r))

/-- The lines of a script, and what is wrong with the line behind them. -/
def readLines (total : Nat) : Nat → Cursor → List Script × Option (Nat × SyntaxFault)
  | 0, _ => ([], none)
  | fuel + 1, c =>
    let s := skipLines c.ahead.length c.ahead
    let c := c.moveTo s
    if s.isEmpty then ([], none)
    else
      match readLine total total c with
      | .error fault => ([], some (c.line, fault))
      | .ok (script, rest) =>
        let (more, fault) := readLines total fuel rest
        (script :: more, fault)

def read (s : Octets) : List Script × Option (Nat × SyntaxFault) :=
  let total := 4 * s.length + 16
  readLines total total ⟨s, 1⟩

end BucketBench.Shell
