import BucketBench.Shell.Script

set_option autoImplicit false

/-!
# Words after expansion

What a word expands to is a list of pieces. `fields` splits them into the words of a command, and
`patternOf` takes them for a pattern, in which only unquoted bytes are special.
-/

namespace BucketBench.Shell

inductive Piece where
  /-- A text that is kept in one piece. -/
  | fixed (quoted : Bool) (content : Octets)
  /-- The value of an unquoted expansion, to be split at blanks. -/
  | loose (content : Octets)
  /-- Where one word ends and another begins. -/
  | cut

namespace Piece

def content : Piece → Octets
  | fixed _ c => c
  | loose c => c
  | cut => [' ']

end Piece

def isBlankOctet (c : Char) : Bool := c = ' ' || c = '\t' || c = '\n'

/-- Goes on with the word that was begun, if any, over a text that is split at blanks. -/
def splitLoose : Option Octets → Octets → List Octets × Option Octets
  | begun, [] => ([], begun)
  | begun, c :: r =>
    if isBlankOctet c then
      let (words, last) := splitLoose none r
      (begun.toList ++ words, last)
    else splitLoose (some (begun.getD [] ++ [c])) r

def fieldsFrom : Option Octets → List Piece → List Octets
  | begun, [] => begun.toList
  | begun, .fixed _ c :: rest => fieldsFrom (some (begun.getD [] ++ c)) rest
  | begun, .loose c :: rest =>
    let (words, last) := splitLoose begun c
    words ++ fieldsFrom last rest
  | begun, .cut :: rest => begun.toList ++ fieldsFrom none rest

def fields (ps : List Piece) : List Octets := fieldsFrom none ps

def joined (ps : List Piece) : Octets := ps.flatMap Piece.content

/-! ## Patterns -/

/-- A byte of a pattern, and whether it stands for itself. -/
abbrev PatternByte := Bool × Char

def patternOf (ps : List Piece) : List PatternByte :=
  ps.flatMap fun p => match p with
    | .fixed quoted c => c.map (quoted, ·)
    | .loose c => c.map (false, ·)
    | .cut => [(true, ' ')]

/-- The members of a bracket expression, and the pattern behind it. -/
def bracket : List PatternByte → Bool → Option (List PatternByte × List PatternByte)
  | [], _ => none
  | (false, ']') :: r, false => some ([], r)
  | b :: r, _ => (bracket r false).map fun (a, rest) => (b :: a, rest)

def inBracket (c : Char) : List PatternByte → Bool
  | (_, a) :: (false, '-') :: (_, b) :: r => (a ≤ c && c ≤ b) || inBracket c r
  | (_, a) :: r => c = a || inBracket c r
  | [] => false

/-- The ends of a text, from the whole to nothing. -/
def endsOf : Octets → List Octets
  | [] => [[]]
  | c :: r => (c :: r) :: endsOf r

def matchesPattern : Nat → List PatternByte → Octets → Bool
  | 0, _, _ => false
  | _, [], s => s.isEmpty
  | fuel + 1, (false, '*') :: p, s => (endsOf s).any (matchesPattern fuel p)
  | fuel + 1, (false, '?') :: p, _ :: s => matchesPattern fuel p s
  | fuel + 1, (false, '[') :: p, c :: s =>
    let (negated, q) := match p with
      | (false, '!') :: q => (true, q)
      | q => (false, q)
    match bracket q true with
    | some (members, rest) => (inBracket c members != negated) && matchesPattern fuel rest s
    | none => c = '[' && matchesPattern fuel p s
  | fuel + 1, (_, a) :: p, c :: s => a = c && matchesPattern fuel p s
  | _, _ :: _, [] => false

def matchesWhole (p : List PatternByte) (s : Octets) : Bool := matchesPattern (p.length + 1) p s

def cutFront (longest : Bool) (p : List PatternByte) (s : Octets) : Octets :=
  let cuts := (List.range (s.length + 1)).filter fun n => matchesWhole p (s.take n)
  match if longest then cuts.getLast? else cuts.head? with
  | some n => s.drop n
  | none => s

def cutBack (longest : Bool) (p : List PatternByte) (s : Octets) : Octets :=
  let cuts := (List.range (s.length + 1)).filter fun n => matchesWhole p (s.drop n)
  match if longest then cuts.head? else cuts.getLast? with
  | some n => s.take n
  | none => s

end BucketBench.Shell
