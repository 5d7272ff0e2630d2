import BucketBench.Json.Value
import BucketBench.Number.Digits

set_option autoImplicit false

/-!
# Values read from JSON text

`Json.read?` accepts exactly one value with blanks around it. Containers nest at most 127 deep, a repeated
key keeps its first place and its last value, a whole number out of range is read as a double, and a number
beyond the largest double is refused.
-/

namespace BucketBench.Json

open Digits

def isBlank (c : Char) : Bool := c == ' ' || c == '\t' || c == '\n' || c == '\r'

def skipBlanks (s : List Char) : List Char := s.dropWhile isBlank

/-- The text behind a mark that stands first, blanks apart. -/
def behind? (mark : Char) (s : List Char) : Option (List Char) :=
  match skipBlanks s with
  | c :: r => if c = mark then some r else none
  | [] => none

/-- Whole numbers of 64 bits are kept as such; minus zero is a double, and so are all others. -/
def ofDigits? (negative : Bool) (n : Nat) : Option Value :=
  if negative then
    if n = 0 then some (.double (Double.zero true))
    else if -(n : Int) ∈ IntRange.bits64 then some (.int (-(n : Int)))
    else (Double.ofDecimal? true n 0).map .double
  else if (n : Int) ∈ IntRange.bits64 then some (.int n)
  else (Double.ofDecimal? false n 0).map .double

/-- The digits behind a point, if there is one. -/
def readFraction? : List Char → Option (Option (List Char) × List Char)
  | '.' :: r =>
    match spanDigits r with
    | ([], _) => none
    | (ds, r) => some (some ds, r)
  | r => some (none, r)

/-- The exponent behind its letter, if there is one. -/
def readPower? : List Char → Option (Option Int × List Char)
  | 'e' :: r => (readExponent? r).map fun (e, r) => (some e, r)
  | 'E' :: r => (readExponent? r).map fun (e, r) => (some e, r)
  | r => some (none, r)

/-- The value of a number with the given parts; with a fraction or an exponent it is a double. -/
def ofParts? (negative : Bool) (whole : List Char) : Option (List Char) → Option Int → Option Value
  | none, none => ofDigits? negative (decimalValue whole)
  | fraction, exponent =>
    let ds := fraction.getD []
    (Double.ofDecimal? negative (decimalValue (whole ++ ds)) (exponent.getD 0 - ds.length)).map .double

def readNumber? (negative : Bool) (s : List Char) : Option (Value × List Char) := do
  let (whole, r) := spanDigits s
  if whole.isEmpty || (whole.length > 1 && whole.head? == some '0') then none
  let (fraction, r) ← readFraction? r
  let (exponent, r) ← readPower? r
  return (← ofParts? negative whole fraction exponent, r)

/-- The text behind an opening quote, up to its closing quote. `high` is the first half of a pair of
escapes that together denote one character. -/
def readString? (high : Option Nat) : List Char → Option (List Char × List Char)
  | [] => none
  | '\\' :: 'u' :: a :: b :: c :: d :: r => do
    let unit := 4096 * (← hexDigit? a) + 256 * (← hexDigit? b) + 16 * (← hexDigit? c) + (← hexDigit? d)
    match high with
    | some h =>
      if 0xDC00 ≤ unit ∧ unit ≤ 0xDFFF then
        let (s, r) ← readString? none r
        some (Char.ofNat (0x10000 + 1024 * (h - 0xD800) + (unit - 0xDC00)) :: s, r)
      else none
    | none =>
      if 0xD800 ≤ unit ∧ unit ≤ 0xDBFF then readString? (some unit) r
      else if 0xDC00 ≤ unit ∧ unit ≤ 0xDFFF then none
      else
        let (s, r) ← readString? none r
        some (Char.ofNat unit :: s, r)
  | '\\' :: c :: r => do
    if high.isSome then none
    let plain ← match c with
      | '"' => some '"'
      | '\\' => some '\\'
      | '/' => some '/'
      | 'b' => some '\x08'
      | 'f' => some '\x0c'
      | 'n' => some '\n'
      | 'r' => some '\r'
      | 't' => some '\t'
      | _ => none
    let (s, r) ← readString? none r
    some (plain :: s, r)
  | c :: r =>
    if high.isSome then none
    else if c = '"' then some ([], r)
    else if c.toNat < 0x20 ∨ c = '\\' then none
    else (readString? none r).map fun (s, r) => (c :: s, r)

mutual

/-- One value and the text behind it; `depth` containers may still be opened. -/
def readValue? (depth : Nat) : Nat → List Char → Option (Value × List Char)
  | 0, _ => none
  | fuel + 1, s =>
    match skipBlanks s with
    | 'n' :: 'u' :: 'l' :: 'l' :: r => some (.null, r)
    | 't' :: 'r' :: 'u' :: 'e' :: r => some (.bool true, r)
    | 'f' :: 'a' :: 'l' :: 's' :: 'e' :: r => some (.bool false, r)
    | '"' :: r => (readString? none r).map fun (s, r) => (.string (String.ofList s), r)
    | '-' :: r => readNumber? true r
    | '[' :: r =>
      match depth with
      | 0 => none
      | depth + 1 =>
        match skipBlanks r with
        | ']' :: r => some (.array [], r)
        | r => (readItems? depth fuel r).map fun (vs, r) => (.array vs, r)
    | '{' :: r =>
      match depth with
      | 0 => none
      | depth + 1 =>
        match skipBlanks r with
        | '}' :: r => some (.object [], r)
        | r => (readMembers? depth fuel r).map fun (ms, r) => (.object (Document.ofMembers ms), r)
    | r => readNumber? false r

/-- The elements of an array up to its closing bracket; at least one. -/
def readItems? (depth : Nat) : Nat → List Char → Option (List Value × List Char)
  | 0, _ => none
  | fuel + 1, s => do
    let (v, r) ← readValue? depth fuel s
    match skipBlanks r with
    | ']' :: r => some ([v], r)
    | ',' :: r =>
      let (vs, r) ← readItems? depth fuel r
      some (v :: vs, r)
    | _ => none

/-- The members of an object up to its closing brace; at least one. -/
def readMembers? (depth : Nat) : Nat → List Char → Option (List (String × Value) × List Char)
  | 0, _ => none
  | fuel + 1, s => do
    let (k, r) ← readString? none (← behind? '"' s)
    let (v, r) ← readValue? depth fuel (← behind? ':' r)
    let m := (String.ofList k, v)
    match skipBlanks r with
    | '}' :: r => some ([m], r)
    | ',' :: r =>
      let (ms, r) ← readMembers? depth fuel r
      some (m :: ms, r)
    | _ => none

end

def maxDepth : Nat := 127

def read? (text : String) : Option Value :=
  let s := text.toList
  match readValue? maxDepth (2 * s.length + 2) s with
  | some (v, r) => if (skipBlanks r).isEmpty then some v else none
  | none => none

end BucketBench.Json
