set_option autoImplicit false

/-!
# A place in a YAML text

What is left of a text and where it stands: the number of characters before it, its line, and its column. The
classes of characters that the grammar tells apart are here as well; the end of the text counts as a blank.
-/

namespace BucketBench.Yaml

/-- The ends of lines: carriage return, line feed, next line, and the line and paragraph separators. -/
def isBreak (c : Char) : Bool :=
  c == '\n' || c == '\r' || c.toNat == 0x85 || c.toNat == 0x2028 || c.toNat == 0x2029

def isBlank (c : Char) : Bool := c == ' ' || c == '\t'

/-- Whether a text is over or goes on with a blank or the end of a line. -/
def isGap : List Char → Bool
  | [] => true
  | c :: _ => isBlank c || isBreak c

/-- A character of the names of anchors, tag handles and directives. -/
def isNameChar (c : Char) : Bool := c.isAlphanum || c == '_' || c == '-'

def isAllowed (c : Char) : Bool :=
  let n := c.toNat
  n == 0x09 || n == 0x0A || n == 0x0D || (0x20 ≤ n && n ≤ 0x7E) || n == 0x85 || (0xA0 ≤ n && n ≤ 0xD7FF)
    || (0xE000 ≤ n && n ≤ 0xFFFD) || 0x10000 ≤ n

structure Cursor where
  rest : List Char
  index : Nat
  line : Nat
  column : Nat

namespace Cursor

def ofText (text : String) : Cursor := ⟨text.toList, 0, 0, 0⟩

def skip (count : Nat) (c : Cursor) : Cursor :=
  { c with rest := c.rest.drop count, index := c.index + count, column := c.column + count }

def skipWhile (isKind : Char → Bool) (c : Cursor) : Cursor := c.skip (c.rest.takeWhile isKind).length

/-- Passes the end of a line, which a text keeps as a line feed unless it is a separator. -/
def readBreak (c : Cursor) : List Char × Cursor :=
  match c.rest with
  | '\r' :: '\n' :: r => (['\n'], ⟨r, c.index + 2, c.line + 1, 0⟩)
  | b :: r =>
    let kept := if b.toNat == 0x2028 || b.toNat == 0x2029 then b else '\n'
    if isBreak b then ([kept], ⟨r, c.index + 1, c.line + 1, 0⟩) else ([], c)
  | [] => ([], c)

def skipBreak (c : Cursor) : Cursor := c.readBreak.2

def startsWith (s : List Char) (c : Cursor) : Bool := s.isPrefixOf c.rest

def atBreak (c : Cursor) : Bool :=
  match c.rest with
  | b :: _ => isBreak b
  | [] => false

def atLineEnd (c : Cursor) : Bool := c.rest.isEmpty || c.atBreak

/-- Whether a mark of three characters stands here, at the start of a line and alone. -/
def atMark (mark : List Char) (c : Cursor) : Bool :=
  c.column == 0 && c.startsWith mark && isGap (c.rest.drop 3)

def atDocumentMark (c : Cursor) : Bool := c.atMark ['-', '-', '-'] || c.atMark ['.', '.', '.']

def skipComment (c : Cursor) : Cursor :=
  if c.startsWith ['#'] then c.skipWhile (fun x => !isBreak x) else c

/-- Passes blanks, a comment and the end of the line; nothing else may stand there. -/
def finishLine? (c : Cursor) : Option Cursor :=
  let c := (c.skipWhile isBlank).skipComment
  if c.atLineEnd then some c.skipBreak else none

end Cursor

end BucketBench.Yaml
