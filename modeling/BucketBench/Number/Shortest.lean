import BucketBench.Number.Double

set_option autoImplicit false

/-!
# The fewest digits that identify a double

The reals that round to a double form an interval around it, its ends included when the mantissa is even.
`Double.shortest` walks ever finer decimal grids and takes the first one with a point in that interval, of
two points the nearer. `Double.text` lays the digits out: positional for a leading exponent from -5 to 15,
otherwise with a signed exponent.
-/

namespace BucketBench

/-- Compares `a * 10 ^ i` with `b * 2 ^ j` without rounding. -/
def compareDecimal (a : Nat) (i : Int) (b : Nat) (j : Int) : Ordering :=
  compare (Double.timesPower (Double.timesPower a 10 i) 2 (-j))
    (Double.timesPower (Double.timesPower b 2 j) 10 (-i))

/-- `digits * 10 ^ exponent`. -/
structure Decimal where
  digits : Nat
  exponent : Int
deriving DecidableEq

namespace Decimal

def strip : Nat → Decimal → Decimal
  | 0, d => d
  | fuel + 1, d =>
    if d.digits ≠ 0 ∧ d.digits % 10 = 0 then strip fuel ⟨d.digits / 10, d.exponent + 1⟩ else d

end Decimal

namespace Double

def reads (x : Double) (d : Decimal) : Bool :=
  let low := compareDecimal d.digits d.exponent (4 * x.mantissa - if x.isNarrowBelow then 1 else 2) (x.scale - 2)
  let high := compareDecimal d.digits d.exponent (4 * x.mantissa + 2) (x.scale - 2)
  let closed := x.mantissa % 2 == 0
  (low == .gt || (closed && low == .eq)) && (high == .lt || (closed && high == .eq))

/-- Whether the size of the double lies below `10 ^ k`. -/
def isBelowPower (x : Double) (k : Int) : Bool := compareDecimal 1 k x.mantissa x.scale == .gt

/-- The least `k` with the double below `10 ^ k`, found from the binary logarithm and corrected exactly. -/
def decimalPoint (x : Double) : Int :=
  let guess := (((x.mantissa.log2 : Int) + x.scale) * 30103).fdiv 100000
  if x.isBelowPower guess then guess
  else if x.isBelowPower (guess + 1) then guess + 1
  else guess + 2

/-- The nearest point that reads back on the grid of `10 ^ exponent`, a tie going to the even one. -/
def onGrid? (x : Double) (exponent : Int) : Option Decimal :=
  let below := timesPower (timesPower x.mantissa 2 x.scale) 10 (-exponent)
    / timesPower (timesPower 1 2 (-x.scale)) 10 exponent
  match x.reads ⟨below, exponent⟩, x.reads ⟨below + 1, exponent⟩ with
  | true, false => some ⟨below, exponent⟩
  | false, true => some ⟨below + 1, exponent⟩
  | false, false => none
  | true, true =>
    match compareDecimal (2 * below + 1) exponent (2 * x.mantissa) x.scale with
    | .gt => some ⟨below, exponent⟩
    | .lt => some ⟨below + 1, exponent⟩
    | .eq => some ⟨below + below % 2, exponent⟩

/-- The exact value, should no short decimal be found. -/
def exact (x : Double) : Decimal :=
  ⟨timesPower (timesPower x.mantissa 2 x.scale) 5 (-x.scale), min x.scale 0⟩

/-- The fewest digits that read back to the size of the double, without trailing zeros. -/
def shortest (x : Double) : Decimal :=
  if x.magnitude = 0 then ⟨0, 0⟩
  else
    let k := x.decimalPoint
    let found := (List.range 17).findSome? fun n => x.onGrid? (k - (n + 1 : Nat))
    (found.getD x.exact).strip 1100

/-- Digits with the point after the first `whole` of them, padded with zeros on either side; a whole number
keeps one zero behind its point. -/
def positional (digits : String) (whole : Int) : String :=
  let count : Int := digits.length
  if whole ≤ 0 then "0." ++ String.ofList (List.replicate (-whole).toNat '0') ++ digits
  else if count ≤ whole then digits ++ String.ofList (List.replicate (whole - count).toNat '0') ++ ".0"
  else (digits.take whole.toNat).toString ++ "." ++ (digits.drop whole.toNat).toString

/-- Digits with the point after the first of them and a signed exponent. -/
def scientific (digits : String) (exponent : Int) : String :=
  let rest := (digits.drop 1).toString
  (digits.take 1).toString ++ (if rest.isEmpty then "" else "." ++ rest)
    ++ "e" ++ (if exponent < 0 then "-" else "+") ++ toString exponent.natAbs

def signText (x : Double) : String := if x.negative then "-" else ""

/-- A double always shows that it is one: it has a point or an exponent. -/
def text (x : Double) : String :=
  let d := x.shortest
  let digits := toString d.digits
  let whole := (digits.length : Int) + d.exponent
  x.signText ++
    if d.digits = 0 then "0.0"
    else if -5 ≤ whole - 1 ∧ whole - 1 < 16 then positional digits whole
    else scientific digits (whole - 1)

end Double

end BucketBench
