import BucketBench.Number.Digits
import BucketBench.Toml.Table
import BucketBench.World.Timestamp

set_option autoImplicit false

/-!
# The statements of a settings text

A settings text is a list of statements: headers that open a table or a further element of a list of tables,
and assignments to dotted keys. `readStatements` reads them and `read?` builds the value of the whole text from
them. Readers take characters off the front of a text and give back the rest.
-/

namespace BucketBench.Toml

inductive Statement where
  | header (path : List String)
  | element (path : List String)
  | assign (path : List String) (key : String) (value : Value)

abbrev Reader (α : Type) := List Char → Option (α × List Char)

def isBlank (c : Char) : Bool := c == ' ' || c == '\t'

def skipBlanks (s : List Char) : List Char := s.dropWhile isBlank

def isCommentChar (c : Char) : Bool := c == '\t' || (0x20 ≤ c.toNat && c.toNat != 0x7F)

def skipComment (s : List Char) : List Char :=
  match s with
  | '#' :: r => r.dropWhile isCommentChar
  | r => r

/-- The end of a line; the end of the text counts as one. -/
def endOfLine? : List Char → Option (List Char)
  | [] => some []
  | '\n' :: r => some r
  | '\r' :: '\n' :: r => some r
  | _ => none

/-- Blanks, a comment and the end of the line. -/
def endOfStatement? (s : List Char) : Option (List Char) := endOfLine? (skipComment (skipBlanks s))

def skipGaps : Nat → List Char → List Char
  | 0, s => s
  | fuel + 1, s =>
    match skipBlanks s with
    | '\n' :: r => skipGaps fuel r
    | '\r' :: '\n' :: r => skipGaps fuel r
    | r => r

/-- Skips blanks, comments and line ends. -/
def skipLines : Nat → List Char → List Char
  | 0, s => s
  | fuel + 1, s =>
    match skipComment (skipBlanks s) with
    | '\n' :: r => skipLines fuel r
    | '\r' :: '\n' :: r => skipLines fuel r
    | r => r

/-! ## Texts -/

def isPlain (c : Char) : Bool := isCommentChar c && c != '"' && c != '\\'

def readCode (count : Nat) : Reader Char := fun s => do
  let ds := s.take count
  if ds.length < count || ds.any fun c => (Digits.hexDigit? c).isNone then none
  let n := ds.foldl (fun n c => 16 * n + (Digits.hexDigit? c).getD 0) 0
  if n < 0xD800 ∨ (0xE000 ≤ n ∧ n < 0x110000) then some (Char.ofNat n, s.drop count) else none

def readEscape : Reader Char
  | 'b' :: r => some ('\x08', r)
  | 't' :: r => some ('\t', r)
  | 'n' :: r => some ('\n', r)
  | 'f' :: r => some ('\x0c', r)
  | 'r' :: r => some ('\r', r)
  | '"' :: r => some ('"', r)
  | '\\' :: r => some ('\\', r)
  | 'u' :: r => readCode 4 r
  | 'U' :: r => readCode 8 r
  | _ => none

def readBasic : Nat → Reader (List Char)
  | 0, _ => none
  | _ + 1, '"' :: r => some ([], r)
  | fuel + 1, '\\' :: r => do
    let (c, r) ← readEscape r
    let (s, r) ← readBasic fuel r
    some (c :: s, r)
  | fuel + 1, c :: r => if isPlain c then (readBasic fuel r).map fun (s, r) => (c :: s, r) else none
  | _ + 1, [] => none

def readLiteral : Reader (List Char)
  | '\'' :: r => some ([], r)
  | c :: r => if isCommentChar c then (readLiteral r).map fun (s, r) => (c :: s, r) else none
  | [] => none

/-- How many quotes in a row close a text over several lines: three, and up to two that belong to it. -/
def closing? (quote : Char) (s : List Char) : Option (List Char × List Char) :=
  let run := (s.takeWhile (· == quote)).length
  if run < 3 then none
  else
    let own := min (run - 3) 2
    some (List.replicate own quote, s.drop (own + 3))

/-- A text over several lines, escapes read or not. A backslash at the end of a line joins it with the next
text that is no blank. -/
def readLong (quote : Char) : Nat → Reader (List Char)
  | 0, _ => none
  | fuel + 1, s =>
    match closing? quote s with
    | some closed => some closed
    | none =>
      let go (cs : List Char) (r : List Char) := (readLong quote fuel r).map fun (s, r) => (cs ++ s, r)
      match s with
      | '\r' :: '\n' :: r => go ['\n'] r
      | '\n' :: r => go ['\n'] r
      | '\\' :: r =>
        if quote = '\'' then go ['\\'] r
        else match readEscape r with
          | some (c, r) => go [c] r
          | none =>
            match endOfLine? (skipBlanks r) with
            | some next =>
              if (skipBlanks r).isEmpty then none
              else go [] (skipGaps (next.length + 1) next)
            | none => none
      | c :: r => if isCommentChar c then go [c] r else none
      | [] => none

/-- A line end right behind the opening quotes is not part of the text. -/
def skipFirstLine (s : List Char) : List Char :=
  match s with
  | '\n' :: r => r
  | '\r' :: '\n' :: r => r
  | r => r

def readText? (s : List Char) : Option (String × List Char) :=
  let ofChars (r : List Char × List Char) := (String.ofList r.1, r.2)
  match s with
  | '"' :: '"' :: '"' :: r => (readLong '"' (r.length + 1) (skipFirstLine r)).map ofChars
  | '\'' :: '\'' :: '\'' :: r => (readLong '\'' (r.length + 1) (skipFirstLine r)).map ofChars
  | '"' :: r => (readBasic (r.length + 1) r).map ofChars
  | '\'' :: r => (readLiteral r).map ofChars
  | _ => none

/-! ## Keys -/

def isKeyChar (c : Char) : Bool := c.isAlphanum || c == '-' || c == '_'

def readSimpleKey : Reader String
  | '"' :: r => (readBasic (r.length + 1) r).map fun (s, r) => (String.ofList s, r)
  | '\'' :: r => (readLiteral r).map fun (s, r) => (String.ofList s, r)
  | s =>
    match s.span isKeyChar with
    | ([], _) => none
    | (k, r) => some (String.ofList k, r)

/-- Keys joined by dots, with blanks around them. -/
def readKey : Nat → Reader (List String)
  | 0, _ => none
  | fuel + 1, s => do
    let (k, r) ← readSimpleKey (skipBlanks s)
    match skipBlanks r with
    | '.' :: r =>
      let (ks, r) ← readKey fuel r
      some (k :: ks, r)
    | r => some ([k], r)

/-- How many keys a dotted key may have, and how deep values may nest, less one. -/
def depthLimit : Nat := 80

def readPath (s : List Char) : Option (List String × List Char) := do
  let (ks, r) ← readKey (s.length + 1) s
  if ks.length < depthLimit then some (ks, r) else none

/-! ## Scalars -/

/-- Digits of a kind, single underscores allowed between them. -/
def readDigits (isDigit : Char → Bool) : Reader (List Char)
  | c :: r =>
    if isDigit c then
      match r with
      | '_' :: r => (readDigits isDigit r).map fun (ds, r) => (c :: ds, r)
      | r =>
        match readDigits isDigit r with
        | some (ds, r) => some (c :: ds, r)
        | none => some ([c], r)
    else none
  | [] => none

/-- A whole number in decimal digits without leading zeros, and its sign. -/
def readDecimal (s : List Char) : Option ((Bool × List Char) × List Char) := do
  let (negative, r) := match s with
    | '-' :: r => (true, r)
    | '+' :: r => (false, r)
    | r => (false, r)
  match r with
  | '0' :: r => some ((negative, ['0']), r)
  | r =>
    let (ds, r) ← readDigits Char.isDigit r
    some ((negative, ds), r)

def inRange? (n : Int) : Option Value := if n ∈ IntRange.int64 then some (.int n) else none

def readBase (base : Nat) (isDigit : Char → Bool) (s : List Char) : Option (Value × List Char) := do
  let (ds, r) ← readDigits isDigit s
  let n := ds.foldl (fun n c => base * n + (Digits.hexDigit? c).getD 0) 0
  (← inRange? n, r)

def readInteger (s : List Char) : Option (Value × List Char) :=
  match s with
  | '0' :: 'x' :: r => readBase 16 (fun c => (Digits.hexDigit? c).isSome) r
  | '0' :: 'o' :: r => readBase 8 (fun c => '0' ≤ c && c ≤ '7') r
  | '0' :: 'b' :: r => readBase 2 (fun c => c == '0' || c == '1') r
  | s => do
    let ((negative, ds), r) ← readDecimal s
    let n : Int := Digits.decimalValue ds
    (← inRange? (if negative then -n else n), r)

/-- What stands for an infinite number or for none; no setting takes it. -/
def unusable : Value := .double (Double.zero false)

def readSpecial (s : List Char) : Option (Value × List Char) :=
  let r := match s with
    | '-' :: r | '+' :: r => r
    | r => r
  match r with
  | 'i' :: 'n' :: 'f' :: r => some (unusable, r)
  | 'n' :: 'a' :: 'n' :: r => some (unusable, r)
  | _ => none

/-- Whether a number goes on behind its whole part; then it has to be complete. -/
def isFraction (s : List Char) : Bool :=
  match s with
  | '.' :: _ | 'e' :: _ | 'E' :: _ => true
  | _ => false

def readExponent (s : List Char) : Option (Int × List Char) := do
  let (negative, r) := match s with
    | '-' :: r => (true, r)
    | '+' :: r => (false, r)
    | r => (false, r)
  let (ds, r) ← readDigits Char.isDigit r
  let n : Int := Digits.decimalValue ds
  (if negative then -n else n, r)

def readFloat (s : List Char) : Option (Value × List Char) := do
  let ((negative, whole), r) ← readDecimal s
  let (fraction, r) ← match r with
    | '.' :: r => readDigits Char.isDigit r
    | r => some ([], r)
  let (exponent, r) ← match r with
    | 'e' :: r | 'E' :: r => readExponent r
    | r => some (0, r)
  match Double.ofDecimal? negative (Digits.decimalValue (whole ++ fraction)) (exponent - fraction.length) with
  | some x => some (.double x, r)
  | none => if negative then some (unusable, r) else none

def expect (mark : Char) : List Char → Option (List Char)
  | c :: r => if c = mark then some r else none
  | [] => none

/-- Exactly `count` digits. -/
def fixedDigits (count : Nat) (s : List Char) : Option (Nat × List Char) :=
  let ds := s.take count
  if ds.length = count ∧ ds.all Char.isDigit then some (Digits.decimalValue ds, s.drop count) else none

def readDay (s : List Char) : Option (List Char) := do
  let (year, r) ← fixedDigits 4 s
  let r ← expect '-' r
  let (month, r) ← fixedDigits 2 r
  let r ← expect '-' r
  let (day, r) ← fixedDigits 2 r
  if (Day.mk year month day).isValid then some r else none

def readClock (s : List Char) : Option (List Char) := do
  let (hour, r) ← fixedDigits 2 s
  let r ← expect ':' r
  let (minute, r) ← fixedDigits 2 r
  let r ← expect ':' r
  let (second, r) ← fixedDigits 2 r
  let r ← match r with
    | '.' :: r =>
      match Digits.spanDigits r with
      | ([], _) => none
      | (_, r) => some r
    | r => some r
  if hour < 24 ∧ minute < 60 ∧ second ≤ 60 then some r else none

def readZone (s : List Char) : Option (List Char) :=
  let signed (r : List Char) : Option (List Char) := do
    let (hour, r) ← fixedDigits 2 r
    let r ← expect ':' r
    let (minute, r) ← fixedDigits 2 r
    if hour < 24 ∧ minute < 60 then some r else none
  match s with
  | 'Z' :: r | 'z' :: r => some r
  | '+' :: r | '-' :: r => signed r
  | r => some r

/-- A date, a time of day, or both with or without an offset. -/
def readMoment (s : List Char) : Option (List Char) :=
  match readDay s with
  | some r =>
    let clock (r' : List Char) : Option (List Char) :=
      match readClock r' with
      | some r'' => readZone r''
      | none => some r
    match r with
    | 'T' :: r' | 't' :: r' | ' ' :: r' => clock r'
    | r => some r
  | none => readClock s

/-- Whether a date begins here; then it has to be a date. -/
def isDate (s : List Char) : Bool :=
  match fixedDigits 4 s with
  | some (_, '-' :: _) => true
  | _ => false

def isClock (s : List Char) : Bool :=
  match fixedDigits 2 s with
  | some (_, ':' :: _) => true
  | _ => false

/-- The object that a date or time is seen as by whoever reads a setting. -/
def moment (s r : List Char) : Value :=
  .object [("datetime", .string (String.ofList (s.take (s.length - r.length))))]

/-- A date, a time or a number. -/
def readNumeric (s : List Char) : Option (Value × List Char) :=
  if isDate s || isClock s then (readMoment s).map fun r => (moment s r, r)
  else match readSpecial s with
    | some special => some special
    | none =>
      match readDecimal s with
      | some (_, r) => if isFraction r then readFloat s else readInteger s
      | none => none

/-! ## Values -/

mutual

/-- One value; `depth` arrays and inline tables may still be opened. -/
def readValue (depth : Nat) : Nat → List Char → Option (Value × List Char)
  | 0, _ => none
  | fuel + 1, s =>
    match s with
    | '"' :: _ | '\'' :: _ => (readText? s).map fun (t, r) => (.string t, r)
    | 't' :: 'r' :: 'u' :: 'e' :: r => some (.bool true, r)
    | 'f' :: 'a' :: 'l' :: 's' :: 'e' :: r => some (.bool false, r)
    | '[' :: r =>
      match depth with
      | 0 => none
      | depth + 1 => (readElements depth fuel r).map fun (vs, r) => (.array vs, r)
    | '{' :: r =>
      match depth with
      | 0 => none
      | depth + 1 =>
        match skipBlanks r with
        | '}' :: r => some (.object [], r)
        | r => do
          let (entries, r) ← readEntries depth fuel r
          some (← inlineTable? entries, r)
    | s => readNumeric s

/-- The elements of an array behind its bracket; lines may end anywhere between them. -/
def readElements (depth : Nat) : Nat → List Char → Option (List Value × List Char)
  | 0, _ => none
  | fuel + 1, s =>
    match skipLines (s.length + 1) s with
    | ']' :: r => some ([], r)
    | s => do
      let (v, r) ← readValue depth fuel s
      match skipLines (r.length + 1) r with
      | ',' :: r =>
        let (vs, r) ← readElements depth fuel r
        some (v :: vs, r)
      | ']' :: r => some ([v], r)
      | _ => none

/-- The entries of an inline table up to its brace; at least one, all on one line. -/
def readEntries (depth : Nat) : Nat → List Char → Option (List (List String × Value) × List Char)
  | 0, _ => none
  | fuel + 1, s => do
    let (path, r) ← readPath s
    let r ← match skipBlanks r with
      | '=' :: r => some (skipBlanks r)
      | _ => none
    let (v, r) ← readValue depth fuel r
    match skipBlanks r with
    | ',' :: r =>
      let (rest, r) ← readEntries depth fuel r
      some ((path, v) :: rest, r)
    | '}' :: r => some ([(path, v)], r)
    | _ => none

end

/-! ## Statements -/

def maxDepth : Nat := depthLimit - 1

def readAssignment (s : List Char) : Option (Statement × List Char) := do
  let (path, r) ← readPath s
  let key ← path.getLast?
  let r ← expect '=' (skipBlanks r)
  let (v, r) ← readValue maxDepth (2 * r.length + 2) (skipBlanks r)
  some (.assign path.dropLast key v, ← endOfStatement? r)

def readHeader (s : List Char) : Option (Statement × List Char) := do
  match s with
  | '[' :: r =>
    let (path, r) ← readPath r
    let r ← expect ']' (← expect ']' (skipBlanks r))
    some (.element path, ← endOfStatement? r)
  | r =>
    let (path, r) ← readPath r
    let r ← expect ']' (skipBlanks r)
    some (.header path, ← endOfStatement? r)

def readStatements : Nat → List Char → Option (List Statement)
  | 0, _ => none
  | fuel + 1, s =>
    match skipLines (s.length + 1) s with
    | [] => some []
    | '[' :: r => do
      let (statement, r) ← readHeader r
      return statement :: (← readStatements fuel r)
    | s => do
      let (statement, r) ← readAssignment s
      return statement :: (← readStatements fuel r)

/-- A text under construction: all of it, and the path of the table that assignments go to. -/
structure Building where
  root : Table
  current : List String

def Building.step (b : Building) : Statement → Option Building
  | .header path => do
    let key ← path.getLast?
    return ⟨← Table.within false (Table.opened key) path.dropLast b.root, path⟩
  | .element path => do
    let key ← path.getLast?
    return ⟨← Table.within false (Table.extended key) path.dropLast b.root, path⟩
  | .assign path key v => do
    return { b with root := ← Table.within false (Table.assign (path ++ [key]) v) b.current b.root }

def read? (text : String) : Option Value := do
  let s := match text.toList with
    | '\uFEFF' :: r => r
    | s => s
  let statements ← readStatements (s.length + 1) s
  let b ← statements.foldlM Building.step ⟨Table.empty, []⟩
  return b.root.toNode.toValue

end BucketBench.Toml
