set_option autoImplicit false

/-!
# Finite double-precision numbers

A double is kept as its sign and its exponent and fraction bits, so that equality, order and rounding are
facts about naturals. `nearest?` rounds a quotient of naturals once, ties to the even neighbour; every
number read from text goes through it.
-/

namespace BucketBench

/-- How many fractions there are beside one exponent: two to the power of 52. -/
def fractionCount : Nat := 4503599627370496

/-- A finite double: its sign and, as one natural, its exponent and fraction bits. -/
structure Double where
  negative : Bool
  magnitude : Nat
  finite : magnitude < 2047 * fractionCount
deriving DecidableEq

namespace Double

def zero (negative : Bool) : Double := ⟨negative, 0, by decide⟩

instance : Inhabited Double := ⟨zero false⟩

/-- Equal as numbers: the two zeros are one number. -/
def same (x y : Double) : Bool :=
  x.magnitude == y.magnitude && (x.magnitude == 0 || x.negative == y.negative)

/-- Whether the number lies below zero; neither zero does. -/
def isBelowZero (x : Double) : Bool := x.negative && x.magnitude != 0

theorem same_refl (x : Double) : x.same x = true := by simp [same]

theorem same_comm (x y : Double) : x.same y = y.same x := by
  unfold same
  rw [Bool.eq_iff_iff]
  simp only [Bool.and_eq_true, Bool.or_eq_true, beq_iff_eq]
  constructor <;> rintro ⟨h, k⟩ <;> refine ⟨h.symm, ?_⟩ <;> rcases k with k | k <;> simp_all

theorem same_trans {x y z : Double} (h : x.same y = true) (k : y.same z = true) : x.same z = true := by
  simp only [same, Bool.and_eq_true, Bool.or_eq_true, beq_iff_eq] at *
  refine ⟨h.1.trans k.1, ?_⟩
  rcases h.2 with h' | h'
  · exact Or.inl h'
  · rcases k.2 with k' | k'
    · exact Or.inl (h.1.trans k')
    · exact Or.inr (h'.trans k')

/-- The whole number `mantissa` in `mantissa * 2 ^ scale`, the size of the number. -/
def mantissa (x : Double) : Nat :=
  if x.magnitude < fractionCount then x.magnitude else x.magnitude % fractionCount + fractionCount

/-- The power of two in `mantissa * 2 ^ scale`. -/
def scale (x : Double) : Int := (max (x.magnitude / fractionCount) 1 : Nat) - 1075

/-- Below a power of two the neighbour is half as far away as above it. -/
def isNarrowBelow (x : Double) : Bool :=
  x.magnitude % fractionCount == 0 && decide (2 * fractionCount ≤ x.magnitude)

/-- `num / den` rounded to a whole number, a tie to the even neighbour. -/
def roundQuotient (num den : Nat) : Nat :=
  let quotient := num / den
  let rest := num % den
  if 2 * rest < den then quotient
  else if den < 2 * rest then quotient + 1
  else quotient + quotient % 2

/-- A number times a power; a negative exponent counts as zero. -/
def timesPower (n base : Nat) (exponent : Int) : Nat := n * Nat.pow base exponent.toNat

/-- The quotient `num / den` counted in units of `2 ^ unit`, rounded. -/
def countUnits (num den : Nat) (unit : Int) : Nat :=
  roundQuotient (timesPower num 2 (-unit)) (timesPower den 2 unit)

/-- The unit in the last place of a double near `num / den`: 53 bits, and never below the least subnormal. -/
def unitOf (num den : Nat) : Int :=
  let lead : Int := (num.log2 : Int) - (den.log2 : Int)
  let reaches := timesPower den 2 lead ≤ timesPower num 2 (-lead)
  max (if reaches then lead - 52 else lead - 53) (-1074)

/-- The double nearest to `num / den` with the given sign; none when it lies beyond the largest one. -/
def nearest? (negative : Bool) (num den : Nat) : Option Double :=
  if num = 0 then some (zero negative)
  else
    let unit := unitOf num den
    let magnitude := (unit + 1074).toNat * fractionCount + countUnits num den unit
    if h : magnitude < 2047 * fractionCount then some ⟨negative, magnitude, h⟩ else none

/-- The double nearest to `digits * 10 ^ exponent`. Exponents far out of range are settled by the number of
digits alone, so that no huge power is ever built. -/
def ofDecimal? (negative : Bool) (digits : Nat) (exponent : Int) : Option Double :=
  if digits = 0 then some (zero negative)
  else
    let top : Int := (toString digits).length + exponent
    if 400 < top then none
    else if top < -400 then some (zero negative)
    else if 0 ≤ exponent then nearest? negative (timesPower digits 10 exponent) 1
    else nearest? negative digits (timesPower 1 10 (-exponent))

def ofInt? (n : Int) : Option Double := nearest? (n < 0) n.natAbs 1

end Double

end BucketBench
