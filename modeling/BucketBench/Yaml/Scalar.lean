import BucketBench.Number.Digits
import BucketBench.Yaml.Cursor

set_option autoImplicit false

/-!
# Texts in a YAML text

A scalar is plain, stands between quotes, or is a block of indented lines. Within plain and quoted scalars the
blanks and line ends between two words are one gap: on one line it is kept, a single line end becomes a space,
and of several all but the first are kept.
-/

namespace BucketBench.Yaml

/-- What lies between two words: blanks on one line, or a first line end and further ones. -/
structure Gap where
  blanks : List Char
  first : List Char
  more : List Char
  isBroken : Bool

namespace Gap

def none : Gap := ⟨[], [], [], false⟩

def folded (first more : List Char) : List Char :=
  if first.head? = some '\n' then if more.isEmpty then [' '] else more
  else first ++ more

def text (g : Gap) : List Char := if g.isBroken then folded g.first g.more else g.blanks

/-- Adds a blank, which counts only on the first line. -/
def addBlank (b : Char) (g : Gap) : Gap := if g.isBroken then g else { g with blanks := g.blanks ++ [b] }

def addBreak (b : List Char) (g : Gap) : Gap :=
  if g.isBroken then { g with more := g.more ++ b } else { g with blanks := [], first := b, isBroken := true }

/-- Reads on up to the next word. On later lines a tab must not stand before column `indent`. -/
def read (indent : Nat) : Nat → Gap → Cursor → Option (Gap × Cursor)
  | 0, _, _ => Option.none
  | fuel + 1, g, c =>
    match c.rest with
    | [] => some (g, c)
    | b :: _ =>
      if isBlank b then
        if g.isBroken && c.column < indent && b == '\t' then Option.none
        else read indent fuel (g.addBlank b) (c.skip 1)
      else if isBreak b then
        let (kept, next) := c.readBreak
        read indent fuel (g.addBreak kept) next
      else some (g, c)

end Gap

/-! ## Plain scalars -/

def isFlowMark (c : Char) : Bool := c == ',' || c == '[' || c == ']' || c == '{' || c == '}'

/-- How many characters a word of a plain scalar has; inside brackets a colon must not run into a mark. -/
def plainLength (inFlow : Bool) : List Char → Option Nat
  | [] => some 0
  | c :: r =>
    if isBlank c || isBreak c then some 0
    else if inFlow && c == ':' && r.head?.any (fun x => isFlowMark x || x == '?') then none
    else if (c == ':' && isGap r) || (inFlow && isFlowMark c) then some 0
    else (plainLength inFlow r).map (· + 1)

/-- A plain scalar, and whether the text after it starts on a new line. -/
structure PlainScalar where
  text : List Char
  brokeLine : Bool
  next : Cursor

/-- Reads a plain scalar; outside of brackets it ends before a line that is not indented by `indent`. -/
def readPlain (inFlow : Bool) (indent : Nat) : Nat → List Char → Gap → Cursor → Option PlainScalar
  | 0, _, _, _ => none
  | fuel + 1, text, gap, c =>
    if c.atDocumentMark || c.startsWith ['#'] then some ⟨text, gap.isBroken, c⟩
    else do
      let length ← plainLength inFlow c.rest
      let (text, gap) := if length = 0 then (text, gap) else (text ++ gap.text ++ c.rest.take length, Gap.none)
      let c := c.skip length
      if c.rest.isEmpty || !isGap c.rest then return ⟨text, gap.isBroken, c⟩
      let (gap, c) ← Gap.read indent (c.rest.length + 1) gap c
      if !inFlow && c.column < indent then return ⟨text, gap.isBroken, c⟩
      readPlain inFlow indent fuel text gap c

/-! ## Quoted scalars -/

def readEscape? : List Char → Option (Char × Nat)
  | [] => none
  | e :: r =>
    let code (count : Nat) : Option (Char × Nat) := do
      let ds := r.take count
      if ds.length < count || ds.any fun d => (Digits.hexDigit? d).isNone then none
      let n := ds.foldl (fun n d => 16 * n + (Digits.hexDigit? d).getD 0) 0
      if n < 0xD800 ∨ (0xE000 ≤ n ∧ n < 0x110000) then some (Char.ofNat n, count + 1) else none
    match e with
    | '0' => some ('\x00', 1)
    | 'a' => some ('\x07', 1)
    | 'b' => some ('\x08', 1)
    | 't' | '\t' => some ('\t', 1)
    | 'n' => some ('\n', 1)
    | 'v' => some ('\x0b', 1)
    | 'f' => some ('\x0c', 1)
    | 'r' => some ('\r', 1)
    | 'e' => some ('\x1b', 1)
    | ' ' => some (' ', 1)
    | '"' => some ('"', 1)
    | '/' => some ('/', 1)
    | '\\' => some ('\\', 1)
    | 'N' => some ('\u0085', 1)
    | '_' => some ('\u00a0', 1)
    | 'L' => some ('\u2028', 1)
    | 'P' => some ('\u2029', 1)
    | 'x' => code 2
    | 'u' => code 4
    | 'U' => code 8
    | _ => none

/-- Reads up to a blank, a line end or the closing quote; the flag tells that an escaped line end was passed. -/
def readQuotedWord (quote : Char) : Nat → List Char → Cursor → Option (List Char × Bool × Cursor)
  | 0, _, _ => none
  | fuel + 1, word, c =>
    match c.rest with
    | [] => some (word, false, c)
    | x :: r =>
      if isBlank x || isBreak x then some (word, false, c)
      else if x == quote then
        if quote == '\'' && r.head? == some '\'' then readQuotedWord quote fuel (word ++ ['\'']) (c.skip 2)
        else some (word, false, c)
      else if quote == '"' && x == '\\' then
        if r.head?.any isBreak then some (word, true, (c.skip 1).skipBreak)
        else do
          let (e, length) ← readEscape? r
          readQuotedWord quote fuel (word ++ [e]) (c.skip (length + 1))
      else readQuotedWord quote fuel (word ++ [x]) (c.skip 1)

def readQuoted (quote : Char) : Nat → List Char → Cursor → Option (List Char × Cursor)
  | 0, _, _ => none
  | fuel + 1, text, c =>
    if c.atDocumentMark || c.rest.isEmpty then none
    else do
      let (word, joined, c) ← readQuotedWord quote (c.rest.length + 1) [] c
      let text := text ++ word
      if c.startsWith [quote] then return (text, c.skip 1)
      let (gap, c) ← Gap.read 0 (c.rest.length + 1) { Gap.none with isBroken := joined } c
      readQuoted quote fuel (text ++ gap.text) c

/-! ## Block scalars -/

inductive Chomping where
  | strip
  | clip
  | keep
deriving DecidableEq

def chomping? : List Char → Option Chomping
  | '+' :: _ => some .keep
  | '-' :: _ => some .strip
  | _ => none

/-- The indentation that a block's header asks for: one digit, and not zero. -/
def increment? : List Char → Option (Option Nat)
  | d :: _ => if d == '0' then none else some (Digits.digit? d)
  | [] => some none

/-- The header of a block: its chomping, its indentation if given, and the lines behind it. -/
def readBlockHeader (c : Cursor) : Option (Chomping × Option Nat × Cursor) := do
  match chomping? c.rest with
  | some chomping =>
    let c := c.skip 1
    let increment ← increment? c.rest
    return (chomping, increment, ← (c.skip (if increment.isSome then 1 else 0)).finishLine?)
  | none =>
    let increment ← increment? c.rest
    let c := c.skip (if increment.isSome then 1 else 0)
    let chomping := if increment.isSome then chomping? c.rest else none
    return (chomping.getD .clip, increment, ← (c.skip (if chomping.isSome then 1 else 0)).finishLine?)

/-- Passes empty lines and the indentation of the line behind them. Without an indentation the deepest of
these lines decides it, `least` at the least. -/
def readBlockBreaks (least : Nat) : Nat → Option Nat → Nat → List Char → Cursor → Option (Nat × List Char × Cursor)
  | 0, _, _, _, _ => none
  | fuel + 1, indent, deepest, breaks, c =>
    let blanks := (c.rest.takeWhile (· == ' ')).length
    let c := c.skip (match indent with
      | some indent => min blanks (indent - c.column)
      | none => blanks)
    let deepest := max deepest c.column
    if indent.all (c.column < ·) && c.startsWith ['\t'] then none
    else if c.atBreak then
      let (kept, c) := c.readBreak
      readBlockBreaks least fuel indent deepest (breaks ++ kept) c
    else some (indent.getD (max deepest least), breaks, c)

/-- A block whose last line end and the empty lines behind it are not yet decided. -/
structure BlockText where
  text : List Char
  lastBreak : List Char
  breaks : List Char
  isBlankLed : Bool

/-- Joins the next line to a block. Folding joins lines with a space unless one of them begins with a blank. -/
def BlockText.join (isLiteral : Bool) (b : BlockText) (startsBlank : Bool) : List Char :=
  if !isLiteral && b.lastBreak.head? == some '\n' && !b.isBlankLed && !startsBlank then
    b.text ++ (if b.breaks.isEmpty then [' '] else b.breaks)
  else b.text ++ b.lastBreak ++ b.breaks

def readBlockLines (isLiteral : Bool) (indent : Nat) : Nat → BlockText → Cursor → Option (BlockText × Cursor)
  | 0, _, _ => none
  | fuel + 1, b, c =>
    if c.column != indent || c.rest.isEmpty then some (b, c)
    else do
      let startsBlank := c.rest.head?.any isBlank
      let line := c.rest.takeWhile (fun x => !isBreak x)
      let text := b.join isLiteral startsBlank ++ line
      let (lastBreak, c) := (c.skip line.length).readBreak
      let (_, breaks, c) ← readBlockBreaks 0 (c.rest.length + 1) (some indent) 0 [] c
      readBlockLines isLiteral indent fuel ⟨text, lastBreak, breaks, startsBlank⟩ c

/-- Reads a block behind its mark. `parent` is the indentation of the surrounding block, if there is one. -/
def readBlock (isLiteral : Bool) (parent : Option Nat) (c : Cursor) : Option (List Char × Cursor) := do
  let (chomping, increment, c) ← readBlockHeader c
  let fuel := c.rest.length + 1
  let least := max 1 ((parent.map (· + 1)).getD 0)
  let (indent, breaks, c) ← readBlockBreaks least fuel (increment.map (parent.getD 0 + ·)) 0 [] c
  let (b, c) ← readBlockLines isLiteral indent fuel ⟨[], [], breaks, false⟩ c
  return (b.text ++ (if chomping == .strip then [] else b.lastBreak) ++ (if chomping == .keep then b.breaks else []), c)

end BucketBench.Yaml
