import BucketBench.Json.Value
import BucketBench.Number.Digits
import BucketBench.Text.Hex
import BucketBench.World.Timestamp

set_option autoImplicit false

/-!
# Documents on their way to the database

The database knows signed integers of 64 bits and keys without NUL. Objects that spell a database value, such
as `$oid`, `$date` or `$numberLong`, stand for that value: numbers become plain numbers, the others come back
in their canonical spelling. A document that spells such a value as a whole is none.
-/

namespace BucketBench.Wire

open Digits

def fractionText (nanos : Nat) : String :=
  if nanos = 0 then ""
  else
    let digits := (Timestamp.padded 9 nanos).toList.reverse.dropWhile (· == '0')
    "." ++ String.ofList digits.reverse

/-- A date of the database: text within the years 1970 to 9999, otherwise milliseconds. -/
def dateValue (milliseconds : Int) : Value :=
  let t : Timestamp := ⟨milliseconds / 1000, (milliseconds % 1000).toNat * 1000000⟩
  if 0 ≤ milliseconds ∧ milliseconds < 253402300800000 then .object [("$date", .string (t.textWith fractionText))]
  else .object [("$date", .object [("$numberLong", .string (toString milliseconds))])]

/-- Whether a text has the characters of a pattern; a zero stands for any digit, a star for any ASCII character. -/
def hasShape (pattern s : List Char) : Bool :=
  pattern.length == s.length && (pattern.zip s).all fun (p, c) =>
    if p = '0' then (digit? c).isSome else if p = '*' then c.toNat < 128 else p == c

/-- Whether a text is a fraction of a second, if any, and an offset from UTC. -/
def isFractionAndOffset (s : List Char) : Bool :=
  let isOffset (r : List Char) : Bool :=
    r == ['Z'] || r == ['z'] || hasShape "+00:00".toList r || hasShape "-00:00".toList r
  match s with
  | '.' :: r =>
    let (ds, r) := spanDigits r
    !ds.isEmpty && isOffset r
  | r => isOffset r

/-- The milliseconds of a date in the one shape that the database reads. The second 60 stands for the end of the
last second of a month. -/
def readDate? (text : String) : Option Int := do
  let s := text.toList
  if !(hasShape "0000-00-00*00:00:00".toList (s.take 19) && isFractionAndOffset (s.drop 19)) then none
  let t ← Timestamp.ofText? (String.ofList (s.set 10 'T'))
  if t.nanos < 1000000000 then some (t.seconds * 1000 + (t.nanos / 1000000 : Nat))
  else if (Day.ofNumber (t.seconds / 86400 + 1)).day = 1 ∧ t.seconds % 86400 = 86399 then
    some (t.seconds * 1000 + 999)
  else none

/-- A double in text; one that is not finite keeps its spelling. -/
def doubleValue? (s : String) : Option Value :=
  match readExtended? s with
  | none => none
  | some (some x) => some (.double x)
  | some none =>
    let name := if s.toLower.endsWith "nan" then "NaN" else if s.startsWith "-" then "-Infinity" else "Infinity"
    some (.object [("$numberDouble", .string name)])

def isObjectId (s : String) : Bool := s.length == 24 && s.toList.all fun c => (hexDigit? c).isSome

/-- The database value that an object spells, its members converted already; none when it is a document. -/
def spelled? : Document → Option Value
  | [("$oid", .string s)] => if isObjectId s then some (.object [("$oid", .string s.toLower)]) else none
  | [("$numberInt", .string s)] => (readInt? .int32 s).map .int
  | [("$numberLong", .string s)] => (readInt? .int64 s).map .int
  | [("$numberDouble", .string s)] => doubleValue? s
  | [("$date", .int n)] => if n ∈ IntRange.int64 then some (dateValue n) else none
  | [("$date", .string s)] => (readDate? s).map dateValue
  | [("$symbol", .string s)] => some (.object [("$symbol", .string s)])
  | [("$code", .string s)] => some (.object [("$code", .string s)])
  | [("$minKey", .int 1)] => some (.object [("$minKey", .int 1)])
  | [("$maxKey", .int 1)] => some (.object [("$maxKey", .int 1)])
  | [("$undefined", .bool true)] => some (.object [("$undefined", .bool true)])
  | _ => none

def hasNul (key : String) : Bool := key.toList.any (· == '\x00')

mutual

/-- A value as the database holds it; none when it cannot hold it. -/
def value? : Value → Option Value
  | .int n => if n ≤ IntRange.int64.high then some (.int n) else none
  | .array items => (items? items).map .array
  | .object members =>
    (members? members).map fun ms =>
      match spelled? ms with
      | some v => v
      | none => .object ms
  | v => some v

def items? : List Value → Option (List Value)
  | [] => some []
  | v :: rest => do
    let v ← value? v
    let rest ← items? rest
    some (v :: rest)

def members? : Document → Option Document
  | [] => some []
  | (k, v) :: rest => do
    if hasNul k then none
    let v ← value? v
    let rest ← members? rest
    some ((k, v) :: rest)

end

def document? (d : Document) : Option Document := do
  let members ← members? d
  if (spelled? members).isSome then none else some members

end BucketBench.Wire
