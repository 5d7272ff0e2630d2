import BucketBench.Text.Hex
import BucketBench.Yaml.Scalar

set_option autoImplicit false

/-!
# The tokens of a YAML text

Indentation opens and closes blocks, so the tokens of a text carry these as marks of their own. That a scalar
was a key shows only at the colon behind it: a place where a key may begin is remembered, and the marks of the
key are put there once the colon is found on the same line, at most 1024 characters further on.
-/

namespace BucketBench.Yaml

inductive Token where
  | version (major minor : Nat)
  | shorthand (handle lead : String)
  | documentStart
  | documentEnd
  | blockSequence
  | blockMapping
  | blockEnd
  | flowSequence
  | flowSequenceEnd
  | flowMapping
  | flowMappingEnd
  | entry
  | comma
  | key
  | value
  | anchor (name : String)
  | alias (name : String)
  | tag (handle rest : String)
  | scalar (isPlain : Bool) (text : String)
deriving DecidableEq

/-! ## Tags, anchors and directives -/

/-- A character of a tag; inside angle brackets the marks of lists belong to it as well. -/
def isTagChar (bracketed : Bool) (c : Char) : Bool :=
  isNameChar c || c ∈ [';', '/', '?', ':', '@', '&', '=', '+', '$', '.', '!', '~', '*', '\'', '(', ')']
    || (bracketed && c ∈ [',', '[', ']'])

def widthOf? (b : UInt8) : Option Nat :=
  if b < 0x80 then some 1
  else if b < 0xC0 then none
  else if b < 0xE0 then some 2
  else if b < 0xF0 then some 3
  else if b < 0xF8 then some 4
  else none

def readTagEscapes : Nat → List Char → Option (Bytes × List Char)
  | 0, r => some ([], r)
  | left + 1, '%' :: a :: b :: r => do
    let byte := 16 * (← Hex.digit? a) + (← Hex.digit? b)
    if byte &&& 0xC0 != 0x80 then none
    let (bytes, r) ← readTagEscapes left r
    return (byte :: bytes, r)
  | _, _ => none

/-- The bytes of a tag, escapes decoded, and what follows. -/
def readTagBytes (bracketed : Bool) : Nat → List Char → Option (Bytes × List Char)
  | 0, _ => none
  | fuel + 1, '%' :: a :: b :: r => do
    let byte := 16 * (← Hex.digit? a) + (← Hex.digit? b)
    let (more, r) ← readTagEscapes ((← widthOf? byte) - 1) r
    let (rest, r) ← readTagBytes bracketed fuel r
    return (byte :: more ++ rest, r)
  | fuel + 1, c :: r =>
    if c == '%' then none
    else if isTagChar bracketed c then do
      let (rest, r) ← readTagBytes bracketed fuel r
      return (Bytes.ofText c.toString ++ rest, r)
    else some ([], c :: r)
  | _ + 1, [] => some ([], [])

def readTagText (bracketed : Bool) (c : Cursor) : Option (String × Cursor) := do
  let (bytes, r) ← readTagBytes bracketed (c.rest.length + 1) c.rest
  return (bytes.lenientText, c.skip (c.rest.length - r.length))

/-- The length of a tag's handle: an exclamation mark, a name, and a second mark if there is one. -/
def handleLength (s : List Char) : Nat :=
  match s with
  | '!' :: r =>
    let name := (r.takeWhile isNameChar).length
    if (r.drop name).head? == some '!' then name + 2 else name + 1
  | _ => 0

/-- Reads a tag: in angle brackets, behind a handle of its own, or behind the handle `!`. -/
def readTag (inFlow : Bool) (c : Cursor) : Option (Token × Cursor) := do
  let (token, c) ←
    if c.startsWith ['!', '<'] then do
      let (rest, next) ← readTagText true (c.skip 2)
      if rest.isEmpty || !next.startsWith ['>'] then none
      some (Token.tag "" rest, next.skip 1)
    else do
      let handle := c.rest.take (handleLength c.rest)
      if handle.length > 1 && handle.getLast? == some '!' then
        let (rest, next) ← readTagText false (c.skip handle.length)
        if rest.isEmpty then none
        some (Token.tag (String.ofList handle) rest, next)
      else
        let (rest, next) ← readTagText false (c.skip 1)
        some (if rest.isEmpty then Token.tag "" "!" else Token.tag "!" rest, next)
  if isGap c.rest || (inFlow && c.startsWith [',']) then some (token, c) else none

def readName (c : Cursor) : Option (String × Cursor) :=
  let name := c.rest.takeWhile isNameChar
  let c := c.skip name.length
  let ends := isGap c.rest || c.rest.head?.any (· ∈ ['?', ':', ',', ']', '}', '%', '@', '\x60'])
  if name.isEmpty || !ends then none else some (String.ofList name, c)

def readVersionNumber (c : Cursor) : Option (Nat × Cursor) :=
  let ds := c.rest.takeWhile Char.isDigit
  if ds.isEmpty || 9 < ds.length then none else some (Digits.decimalValue ds, c.skip ds.length)

/-- Reads a directive behind its percent sign, with the end of its line. -/
def readDirective (c : Cursor) : Option (Token × Cursor) := do
  let name := c.rest.takeWhile isNameChar
  let c := c.skip name.length
  if !isGap c.rest then none
  let c := c.skipWhile isBlank
  let (token, c) ←
    if name = ['Y', 'A', 'M', 'L'] then do
      let (major, c) ← readVersionNumber c
      if !c.startsWith ['.'] then none
      let (minor, c) ← readVersionNumber (c.skip 1)
      some (Token.version major minor, c)
    else if name = ['T', 'A', 'G'] then do
      let handle := c.rest.take (handleLength c.rest)
      if handle.isEmpty || handle.getLast? != some '!' then none
      let c := c.skip handle.length
      if !c.rest.head?.any isBlank then none
      let (lead, c) ← readTagText true (c.skipWhile isBlank)
      if lead.isEmpty || !isGap c.rest then none
      some (Token.shorthand (String.ofList handle) lead, c)
    else none
  return (token, ← c.finishLine?)

/-! ## Blocks and keys -/

/-- A place where a key may begin; a required one has to turn out to be a key. -/
structure KeyPlace where
  isRequired : Bool
  tokensBefore : Nat
  place : Cursor

/-- A text of which some tokens have been read, the last one first. -/
structure Scan where
  cursor : Cursor
  tokens : List Token
  /-- Columns of the open blocks, the innermost first. -/
  blocks : List Nat
  /-- For every open bracket and for the text outside of them, where a key may begin; innermost first. -/
  keys : List (Option KeyPlace)
  /-- Whether a key may begin at the next token. -/
  keyAllowed : Bool

namespace Scan

def start (text : String) : Scan := ⟨Cursor.ofText text, [], [], [none], true⟩

def inFlow (s : Scan) : Bool := s.keys.length > 1

def push (t : Token) (s : Scan) : Scan := { s with tokens := t :: s.tokens }

/-- Puts a token before the tokens that were read since there were `before` of them. -/
def pushAt (before : Nat) (t : Token) (s : Scan) : Scan :=
  { s with tokens := s.tokens.insertIdx (s.tokens.length - before) t }

def closeBlocks (column : Option Nat) (s : Scan) : Scan :=
  if s.inFlow then s
  else
    let open' := s.blocks.dropWhile fun b => column.all (· < b)
    { s with
      blocks := open'
      tokens := List.replicate (s.blocks.length - open'.length) Token.blockEnd ++ s.tokens }

def openBlock (column : Nat) (mark : Token) (before : Nat) (s : Scan) : Scan :=
  if s.inFlow || s.blocks.head?.any (column ≤ ·) then s
  else { s.pushAt before mark with blocks := column :: s.blocks }

def currentKey (s : Scan) : Option KeyPlace := s.keys.head?.join

def setKey (k : Option KeyPlace) (s : Scan) : Scan := { s with keys := k :: s.keys.tail }

def dropKey (s : Scan) : Option Scan :=
  if s.currentKey.any KeyPlace.isRequired then none else some (s.setKey none)

def saveKey (s : Scan) : Option Scan :=
  if s.keyAllowed then do
    let required := !s.inFlow && s.blocks.head? == some s.cursor.column
    return (← s.dropKey).setKey (some ⟨required, s.tokens.length, s.cursor⟩)
  else some s

/-- Whether a key that began at a place cannot reach up to the cursor. -/
def isStale (c : Cursor) (k : KeyPlace) : Bool := k.place.line < c.line || k.place.index + 1024 < c.index

def dropStaleKeys (s : Scan) : Option Scan :=
  let stale (k : Option KeyPlace) : Bool := k.any (isStale s.cursor)
  if s.keys.any fun k => stale k && k.any KeyPlace.isRequired then none
  else some { s with keys := s.keys.map fun k => if stale k then none else k }

/-- Passes blanks, comments and line ends. A tab does not indent, so it is no blank where a key may begin. -/
def skipGaps : Nat → Scan → Scan
  | 0, s => s
  | fuel + 1, s =>
    let c := if s.cursor.index == 0 && s.cursor.startsWith ['\uFEFF'] then s.cursor.skip 1 else s.cursor
    let c := (c.skipWhile fun x => x == ' ' || ((s.inFlow || !s.keyAllowed) && x == '\t')).skipComment
    if c.atBreak then
      skipGaps fuel { s with cursor := c.skipBreak, keyAllowed := s.keyAllowed || !s.inFlow }
    else { s with cursor := c }

/-! ## Single tokens -/

/-- Reads a token of `count` characters. -/
def take (count : Nat) (t : Token) (s : Scan) : Scan := { s.push t with cursor := s.cursor.skip count }

/-- Reads a directive or the mark of a document, which closes all blocks. -/
def readDocumentMark (t : Token) (s : Scan) : Option Scan := do
  let s ← (s.closeBlocks none).dropKey
  return { s.take 3 t with keyAllowed := false }

def readDirectiveLine (s : Scan) : Option Scan := do
  let s ← (s.closeBlocks none).dropKey
  let (t, c) ← readDirective (s.cursor.skip 1)
  return { s.push t with cursor := c, keyAllowed := false }

def openFlow (t : Token) (s : Scan) : Option Scan := do
  let s := (← s.saveKey).take 1 t
  return { s with keys := none :: s.keys, keyAllowed := true }

def closeFlow (t : Token) (s : Scan) : Option Scan := do
  let s := (← s.dropKey).take 1 t
  return { s with keys := if s.inFlow then s.keys.tail else s.keys, keyAllowed := false }

def readComma (s : Scan) : Option Scan := do
  return { (← s.dropKey).take 1 .comma with keyAllowed := true }

/-- Reads the mark of an element, or of a key that is not a simple one. -/
def readEntry (s : Scan) : Option Scan := do
  if !s.inFlow && !s.keyAllowed then none
  let s ← (s.openBlock s.cursor.column .blockSequence s.tokens.length).dropKey
  return { s.take 1 .entry with keyAllowed := true }

def readKey (s : Scan) : Option Scan := do
  if !s.inFlow && !s.keyAllowed then none
  let s ← (s.openBlock s.cursor.column .blockMapping s.tokens.length).dropKey
  return { s.take 1 .key with keyAllowed := !s.inFlow }

/-- Reads the colon before a value. The key before it, if it was a simple one, gets its mark now. -/
def readValue (s : Scan) : Option Scan :=
  match s.currentKey with
  | some k =>
    let s := (s.pushAt k.tokensBefore .key).openBlock k.place.column .blockMapping k.tokensBefore
    some { (s.setKey none).take 1 .value with keyAllowed := false }
  | none =>
    if !s.inFlow && !s.keyAllowed then none
    else
      let s := s.openBlock s.cursor.column .blockMapping s.tokens.length
      some { s.take 1 .value with keyAllowed := !s.inFlow }

def readAnchor (make : String → Token) (s : Scan) : Option Scan := do
  let s ← s.saveKey
  let (name, c) ← readName (s.cursor.skip 1)
  return { s.push (make name) with cursor := c, keyAllowed := false }

def readTagMark (s : Scan) : Option Scan := do
  let s ← s.saveKey
  let (t, c) ← readTag s.inFlow s.cursor
  return { s.push t with cursor := c, keyAllowed := false }

def readBlockScalar (isLiteral : Bool) (s : Scan) : Option Scan := do
  let s ← s.dropKey
  let (text, c) ← readBlock isLiteral s.blocks.head? (s.cursor.skip 1)
  return { s.push (.scalar false (String.ofList text)) with cursor := c, keyAllowed := true }

def readQuotedScalar (quote : Char) (s : Scan) : Option Scan := do
  let s ← s.saveKey
  let (text, c) ← readQuoted quote (s.cursor.rest.length + 1) [] (s.cursor.skip 1)
  return { s.push (.scalar false (String.ofList text)) with cursor := c, keyAllowed := false }

def readPlainScalar (s : Scan) : Option Scan := do
  let s ← s.saveKey
  let indent := (s.blocks.head?.map (· + 1)).getD 0
  let p ← readPlain s.inFlow indent (s.cursor.rest.length + 1) [] Gap.none s.cursor
  return { s.push (.scalar true (String.ofList p.text)) with cursor := p.next, keyAllowed := p.brokeLine }

def isIndicator (c : Char) : Bool :=
  c ∈ ['-', '?', ':', ',', '[', ']', '{', '}', '#', '&', '*', '!', '|', '>', '\'', '"', '%', '@', '\x60']

def startsPlain (inFlow : Bool) : List Char → Bool
  | [] => false
  | c :: r =>
    if c == '-' then !r.head?.any isBlank
    else if c == '?' || c == ':' then !inFlow && !isGap r
    else !isIndicator c && !isBlank c && !isBreak c

/-- Reads the next token; the cursor stands at its first character. -/
def readToken (s : Scan) : Option Scan :=
  let c := s.cursor
  match c.rest with
  | [] => none
  | x :: r =>
    if c.column == 0 && x == '%' then s.readDirectiveLine
    else if c.atMark ['-', '-', '-'] then s.readDocumentMark .documentStart
    else if c.atMark ['.', '.', '.'] then s.readDocumentMark .documentEnd
    else if x == '[' then s.openFlow .flowSequence
    else if x == '{' then s.openFlow .flowMapping
    else if x == ']' then s.closeFlow .flowSequenceEnd
    else if x == '}' then s.closeFlow .flowMappingEnd
    else if x == ',' then s.readComma
    else if x == '-' && isGap r then s.readEntry
    else if x == '?' && (s.inFlow || isGap r) then s.readKey
    else if x == ':' && (s.inFlow || isGap r) then s.readValue
    else if x == '*' then s.readAnchor .alias
    else if x == '&' then s.readAnchor .anchor
    else if x == '!' then s.readTagMark
    else if x == '|' && !s.inFlow then s.readBlockScalar true
    else if x == '>' && !s.inFlow then s.readBlockScalar false
    else if x == '\'' || x == '"' then s.readQuotedScalar x
    else if startsPlain s.inFlow c.rest then s.readPlainScalar
    else none

/-- Reads all tokens, the last one first. -/
def readAll : Nat → Scan → Option (List Token)
  | 0, _ => none
  | fuel + 1, s => do
    let s ← (s.skipGaps (s.cursor.rest.length + 1)).dropStaleKeys
    let s := s.closeBlocks (some s.cursor.column)
    if s.cursor.rest.isEmpty then return (← (s.closeBlocks none).dropKey).tokens
    readAll fuel (← s.readToken)

end Scan

def tokens? (text : String) : Option (List Token) :=
  if text.toList.all isAllowed then (Scan.start text).readAll (text.length + 1) |>.map List.reverse else none

end BucketBench.Yaml
