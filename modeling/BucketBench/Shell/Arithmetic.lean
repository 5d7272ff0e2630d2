import BucketBench.Shell.Script

set_option autoImplicit false

/-!
# Arithmetic of the shell

Whole numbers of 64 bits that wrap around, with the operators of C and their ranks. Names stand for the values
of variables, and an unset one for zero.
-/

namespace BucketBench.Shell.Arithmetic

inductive Fault where
  | divisionByZero
  | expectingPrimary
  | expectingEnd
  | expecting (token : String)

def Fault.message (expression : Octets) : Fault → String
  | .divisionByZero => "division by zero: \"" ++ String.ofList expression ++ "\""
  | .expectingPrimary => "expecting primary: \"" ++ String.ofList expression ++ "\""
  | .expectingEnd => "expecting EOF: \"" ++ String.ofList expression ++ "\""
  | .expecting token => "expecting '" ++ token ++ "': \"" ++ String.ofList expression ++ "\""

abbrev Variables := List (Octets × Octets)

def wrap (n : Int) : Int := Int.bmod n 18446744073709551616

def ofBool (b : Bool) : Int := if b then 1 else 0

def digit (c : Char) : Nat :=
  if c.isDigit then c.toNat - 48 else if c.isUpper then c.toNat - 55 else c.toNat - 87

def ofDigits (base : Nat) (cs : Octets) : Nat := cs.foldl (fun n c => base * n + digit c) 0

/-- A number in front of a text: decimal, octal behind a zero, hexadecimal behind `0x`. -/
def number? (s : Octets) : Option (Nat × Octets) :=
  let isHex (c : Char) : Bool := c.isDigit || c.toLower ∈ ['a', 'b', 'c', 'd', 'e', 'f']
  let isOctal (c : Char) : Bool := '0' ≤ c && c ≤ '7'
  let read (base : Nat) (ds : Octets) (s : Octets) : Option (Nat × Octets) := some (ofDigits base ds, s.drop ds.length)
  match s with
  | '0' :: r =>
    match r with
    | x :: d :: more =>
      if (x = 'x' || x = 'X') && isHex d then read 16 ((d :: more).takeWhile isHex) (d :: more)
      else read 8 (s.takeWhile isOctal) s
    | _ => read 8 (s.takeWhile isOctal) s
  | c :: _ => if c.isDigit then read 10 (s.takeWhile Char.isDigit) s else none
  | [] => none

def wholeNumber? (s : Octets) : Option Int :=
  let (sign, s) : Int × Octets := match s with
    | '-' :: r => (-1, r)
    | '+' :: r => (1, r)
    | r => (1, r)
  match number? s with
  | some (n, []) => some (sign * n)
  | _ => none

def value (bindings : Variables) (name : Octets) : Int := ((bindings.lookup name).bind wholeNumber?).getD 0

def text (n : Int) : Octets := (toString n).toList

/-- The operators between two operands, longer ones first, with their ranks. -/
def operators : List (String × Nat) :=
  [("<<", 8), (">>", 8), ("<=", 7), (">=", 7), ("==", 6), ("!=", 6), ("&&", 2), ("||", 1), ("*", 10), ("/", 10),
    ("%", 10), ("+", 9), ("-", 9), ("<", 7), (">", 7), ("&", 5), ("^", 4), ("|", 3)]

def skip (s : Octets) : Octets := s.dropWhile fun c => c ∈ [' ', '\t', '\n']

/-- The operator ahead, and the text behind it. -/
def operator? (s : Octets) : Option (String × Nat × Octets) :=
  (operators.find? fun (o, _) => o.toList.isPrefixOf s).map fun (o, rank) => (o, rank, s.drop o.length)

def bitwise (f : BitVec 64 → BitVec 64 → BitVec 64) (a b : Int) : Int :=
  (f (BitVec.ofInt 64 a) (BitVec.ofInt 64 b)).toInt

def apply (operator : String) (a b : Int) : Except Fault Int :=
  match operator with
  | "*" => .ok (wrap (a * b))
  | "/" => if b = 0 then .error .divisionByZero else .ok (wrap (a.tdiv b))
  | "%" => if b = 0 then .error .divisionByZero else .ok (a.tmod b)
  | "+" => .ok (wrap (a + b))
  | "-" => .ok (wrap (a - b))
  | "<<" => .ok (bitwise (fun x y => x <<< (y.toNat % 64)) a b)
  | ">>" => .ok (a >>> (b.toNat % 64))
  | "<" => .ok (ofBool (a < b))
  | ">" => .ok (ofBool (b < a))
  | "<=" => .ok (ofBool (a ≤ b))
  | ">=" => .ok (ofBool (b ≤ a))
  | "==" => .ok (ofBool (a = b))
  | "!=" => .ok (ofBool (a ≠ b))
  | "&" => .ok (bitwise (· &&& ·) a b)
  | "^" => .ok (bitwise (· ^^^ ·) a b)
  | "|" => .ok (bitwise (· ||| ·) a b)
  | "&&" => .ok (ofBool (a ≠ 0 && b ≠ 0))
  | _ => .ok (ofBool (a ≠ 0 || b ≠ 0))

/-- The operator of an assignment behind a name, empty for a plain one. -/
def assignment? (s : Octets) : Option (String × Octets) :=
  match s with
  | '=' :: '=' :: _ => none
  | '=' :: r => some ("", r)
  | _ =>
    match operator? s with
    | some (o, _, '=' :: r) => if o ∈ ["<=", ">=", "==", "!=", "<", ">", "&&", "||"] then none else some (o, r)
    | _ => none

mutual

def primary : Nat → Variables → Octets → Except Fault (Int × Variables × Octets)
  | 0, _, _ => .error .expectingPrimary
  | fuel + 1, vs, s => do
    match skip s with
    | '(' :: r =>
      let (n, vs, rest) ← expression fuel vs r
      match skip rest with
      | ')' :: rest => return (n, vs, rest)
      | _ => throw (.expecting ")")
    | '-' :: r =>
      let (n, rest) ← primary fuel vs r
      return (wrap (-n), rest)
    | '+' :: r => primary fuel vs r
    | '!' :: r =>
      let (n, rest) ← primary fuel vs r
      return (ofBool (n = 0), rest)
    | '~' :: r =>
      let (n, rest) ← primary fuel vs r
      return (-n - 1, rest)
    | s =>
      match number? s with
      | some (n, rest) => return (wrap n, vs, rest)
      | none =>
        let name := s.takeWhile fun c => c.isAlphanum || c == '_'
        if name.isEmpty then throw .expectingPrimary
        match assignment? (skip (s.drop name.length)) with
        | none => return (value vs name, vs, s.drop name.length)
        | some (o, r) =>
          let (n, vs, rest) ← expression fuel vs r
          let n ← if o = "" then pure n else apply o (value vs name) n
          return (n, (name, text n) :: vs.filter (·.1 ≠ name), rest)

/-- What follows an operand, as far as operators of at least a rank go. -/
def continued : Nat → Nat → Int → Variables → Octets → Except Fault (Int × Variables × Octets)
  | 0, _, n, vs, s => .ok (n, vs, s)
  | fuel + 1, rank, n, vs, s =>
    match operator? (skip s) with
    | none => .ok (n, vs, s)
    | some (o, r, rest) =>
      if r < rank then .ok (n, vs, s)
      else do
        let (m, vs, rest) ← primary fuel vs rest
        let (m, vs, rest) ← continued fuel (r + 1) m vs rest
        continued fuel rank (← apply o n m) vs rest

/-- A whole expression, perhaps with a choice. -/
def expression : Nat → Variables → Octets → Except Fault (Int × Variables × Octets)
  | 0, _, _ => .error .expectingPrimary
  | fuel + 1, vs, s => do
    let (n, vs, rest) ← primary fuel vs s
    let (n, vs, rest) ← continued fuel 1 n vs rest
    match skip rest with
    | '?' :: r =>
      let (a, vs, rest) ← expression fuel vs r
      match skip rest with
      | ':' :: r =>
        let (b, vs, rest) ← expression fuel vs r
        return (if n ≠ 0 then a else b, vs, rest)
      | _ => throw (.expecting ":")
    | _ => return (n, vs, rest)

end

/-- The value of an expression and the variables afterwards; nothing at all counts as zero. -/
def evaluate (vs : Variables) (s : Octets) : Except Fault (Int × Variables) :=
  if (skip s).isEmpty then .ok (0, vs)
  else do
    let (n, vs, rest) ← expression (4 * s.length + 4) vs s
    if (skip rest).isEmpty then return (n, vs) else throw .expectingEnd

end BucketBench.Shell.Arithmetic
