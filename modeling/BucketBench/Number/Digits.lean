import BucketBench.Number.Double
import BucketBench.Number.IntRange

set_option autoImplicit false

/-! # Numbers written in digits -/

namespace BucketBench.Digits

def digit? (c : Char) : Option Nat := if '0' ≤ c ∧ c ≤ '9' then some (c.toNat - 48) else none

def hexDigit? (c : Char) : Option Nat :=
  if '0' ≤ c ∧ c ≤ '9' then some (c.toNat - 48)
  else if 'a' ≤ c ∧ c ≤ 'f' then some (c.toNat - 87)
  else if 'A' ≤ c ∧ c ≤ 'F' then some (c.toNat - 55)
  else none

def spanDigits (s : List Char) : List Char × List Char := s.span fun c => (digit? c).isSome

def decimalValue (digits : List Char) : Nat :=
  digits.foldl (fun n c => 10 * n + (digit? c).getD 0) 0

def readExponent? (s : List Char) : Option (Int × List Char) :=
  let (negative, s) := match s with
    | '-' :: r => (true, r)
    | '+' :: r => (false, r)
    | r => (false, r)
  match spanDigits s with
  | ([], _) => none
  | (ds, r) => some (if negative then -(decimalValue ds : Int) else decimalValue ds, r)

def readInt? (range : IntRange) (s : String) : Option Int := do
  let (negative, ds) := match s.toList with
    | '-' :: r => (true, r)
    | '+' :: r => (false, r)
    | r => (false, r)
  if ds.isEmpty || ds.any fun c => (digit? c).isNone then none
  let n : Int := if negative then -(decimalValue ds : Int) else decimalValue ds
  if n ∈ range then some n else none

/-- A decimal number: its sign, its digits without the point, and the power of ten that they are multiplied with. -/
structure Decimal where
  negative : Bool
  digits : Nat
  exponent : Int
deriving DecidableEq

/-- A decimal number with an optional point and exponent; some digit must stand before the exponent. -/
def readDecimal? (s : String) : Option Decimal := do
  let (negative, r) := match s.toList with
    | '-' :: r => (true, r)
    | '+' :: r => (false, r)
    | r => (false, r)
  let (whole, r) := spanDigits r
  let (fraction, r) := match r with
    | '.' :: r => spanDigits r
    | r => ([], r)
  if whole.isEmpty && fraction.isEmpty then none
  let (exponent, r) ← match r with
    | 'e' :: r | 'E' :: r => readExponent? r
    | r => some (0, r)
  if r.isEmpty then some ⟨negative, decimalValue (whole ++ fraction), exponent - fraction.length⟩ else none

/-- The double next to a decimal number; numbers beyond the largest double have none. -/
def readDouble? (s : String) : Option Double := do
  let d ← readDecimal? s
  Double.ofDecimal? d.negative d.digits d.exponent

/-- The words for what is not a finite number, behind a sign. -/
def nonFiniteWords : List String := ["inf", "infinity", "nan"]

/-- A number that need not be finite: `some none` when it is not. -/
def readExtended? (s : String) : Option (Option Double) :=
  let word := match s.toList with
    | '-' :: r => r
    | '+' :: r => r
    | r => r
  if (String.ofList word).toLower ∈ nonFiniteWords then some none
  else (readDecimal? s).map fun d => Double.ofDecimal? d.negative d.digits d.exponent

end BucketBench.Digits
