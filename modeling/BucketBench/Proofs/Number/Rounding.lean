import BucketBench.Number.Double
import Mathlib.Algebra.Order.Field.Power
import Mathlib.Data.Int.Log
import Mathlib.Data.Rat.Floor
import Mathlib.Tactic.FieldSimp
import Mathlib.Tactic.Linarith
import Mathlib.Tactic.NormNum
import Mathlib.Tactic.Positivity
import Mathlib.Tactic.Ring

set_option autoImplicit false

/-!
# The reals around a double

A rational number is near a double when it lies between the two midpoints to the neighbours, the midpoints included
when the mantissa is even. Rounding takes every such number to the double.
-/

namespace BucketBench.Double

/-! ## Rounding a quotient -/

theorem roundQuotient_eq {num den k : Nat} (pos : 0 < den)
    (above : 2 * (k * den) < 2 * num + den ∨ k % 2 = 0 ∧ 2 * (k * den) = 2 * num + den)
    (below : 2 * num < 2 * (k * den) + den ∨ k % 2 = 0 ∧ 2 * num = 2 * (k * den) + den) :
    roundQuotient num den = k := by
  have split := Nat.div_add_mod num den
  have rest := Nat.mod_lt num pos
  have atLeast : num / den ≤ k := by
    by_contra less
    have : (k + 1) * den ≤ num / den * den := Nat.mul_le_mul_right _ (by omega)
    rw [Nat.add_mul, Nat.mul_comm (num / den)] at this
    omega
  have atMost : k ≤ num / den + 1 := by
    by_contra more
    have : (num / den + 2) * den ≤ k * den := Nat.mul_le_mul_right _ (by omega)
    rw [Nat.add_mul, Nat.mul_comm (num / den)] at this
    omega
  rw [roundQuotient]
  obtain rfl | rfl : k = num / den ∨ k = num / den + 1 := by omega
  · rw [Nat.mul_comm (num / den)] at above below
    split_ifs <;> omega
  · rw [Nat.add_mul, Nat.mul_comm (num / den)] at above below
    split_ifs <;> omega

theorem cast_timesPower (n base : Nat) (e : ℤ) : (timesPower n base e : ℚ) = n * (base : ℚ) ^ e.toNat := by
  rw [timesPower, Nat.cast_mul]
  exact congrArg _ (Nat.cast_pow base e.toNat)

theorem timesPower_div (num den : Nat) {base : Nat} (pos : 0 < base) (e : ℤ) :
    (timesPower num base (-e) : ℚ) / timesPower den base e = num / den / (base : ℚ) ^ e := by
  have nonzero : (base : ℚ) ≠ 0 := by exact_mod_cast pos.ne'
  rw [cast_timesPower, cast_timesPower]
  obtain ⟨n, rfl | rfl⟩ := e.eq_nat_or_neg
  · simp [div_div]
  · simp [mul_div_right_comm]

theorem timesPower_pos {n base : Nat} (hn : 0 < n) (hb : 0 < base) (e : ℤ) : 0 < timesPower n base e :=
  Nat.mul_pos hn (Nat.pow_pos hb)

def Below (closed : Prop) (a b : ℚ) : Prop := a < b ∨ closed ∧ a = b

section Below

variable {closed : Prop} {a b c : ℚ}

theorem Below.le (h : Below closed a b) : a ≤ b := by
  obtain less | ⟨-, same⟩ := h
  · exact less.le
  · exact same.le

theorem Below.of_le (h : a ≤ b) (ends : closed) : Below closed a b := by
  obtain less | same := h.lt_or_eq
  · exact Or.inl less
  · exact Or.inr ⟨ends, same⟩

theorem below_mul_iff (pos : 0 < c) : Below closed (a * c) (b * c) ↔ Below closed a b := by
  rw [Below, Below, mul_lt_mul_iff_of_pos_right pos, mul_left_inj' pos.ne']

end Below

/-- Counting in units rounds the quotient to the nearest whole number of them, a tie to the even one. -/
theorem countUnits_eq {num den k : Nat} (pos : 0 < den) {unit : ℤ}
    (above : Below (k % 2 = 0) ((k : ℚ) - 1 / 2) (num / den / 2 ^ unit))
    (below : Below (k % 2 = 0) ((num : ℚ) / den / 2 ^ unit) (k + 1 / 2)) : countUnits num den unit = k := by
  have quotient := timesPower_div num den (by decide : 0 < 2) unit
  rw [Nat.cast_ofNat] at quotient
  have denPos := timesPower_pos pos (by decide : 0 < 2) unit
  rw [← quotient] at above below
  rw [countUnits]
  generalize timesPower num 2 (-unit) = a at above below ⊢
  generalize timesPower den 2 unit = b at above below denPos ⊢
  have bPos : (0 : ℚ) < 2 * b := by positivity
  have whole : (a : ℚ) / b * (2 * b) = (2 * a : ℕ) := by
    push_cast
    field_simp
  rw [← below_mul_iff bPos, whole] at above below
  apply roundQuotient_eq denPos
  · obtain less | ⟨even, same⟩ := above
    · left
      have : ((2 * (k * b) : ℕ) : ℚ) < (2 * a + b : ℕ) := by
        push_cast at less ⊢
        linarith
      exact_mod_cast this
    · right
      have : ((2 * (k * b) : ℕ) : ℚ) = (2 * a + b : ℕ) := by
        push_cast at same ⊢
        linarith
      exact ⟨even, by exact_mod_cast this⟩
  · obtain less | ⟨even, same⟩ := below
    · left
      have : ((2 * a : ℕ) : ℚ) < (2 * (k * b) + b : ℕ) := by
        push_cast at less ⊢
        linarith
      exact_mod_cast this
    · right
      have : ((2 * a : ℕ) : ℚ) = (2 * (k * b) + b : ℕ) := by
        push_cast at same ⊢
        linarith
      exact ⟨even, by exact_mod_cast this⟩

/-! ## The unit in the last place -/

theorem log_eq {r : ℚ} (pos : 0 < r) {e : ℤ} (least : (2 : ℚ) ^ e ≤ r) (less : r < 2 ^ (e + 1)) : Int.log 2 r = e := by
  have atLeast := (Int.zpow_le_iff_le_log (by decide : 1 < 2) pos).1 (by exact_mod_cast least)
  have atMost := (Int.lt_zpow_iff_log_lt (by decide : 1 < 2) pos).1 (by exact_mod_cast less)
  omega

theorem quotient_bounds {num den : Nat} (hnum : 0 < num) (hden : 0 < den) :
    (2 : ℚ) ^ ((num.log2 : ℤ) - den.log2 - 1) ≤ num / den ∧ (num : ℚ) / den < 2 ^ ((num.log2 : ℤ) - den.log2 + 1) := by
  have numLow : (2 : ℚ) ^ (num.log2 : ℤ) ≤ num := by exact_mod_cast Nat.log2_self_le hnum.ne'
  have numHigh : (num : ℚ) < 2 ^ ((num.log2 : ℤ) + 1) := by exact_mod_cast @Nat.lt_log2_self num
  have denLow : (2 : ℚ) ^ (den.log2 : ℤ) ≤ den := by exact_mod_cast Nat.log2_self_le hden.ne'
  have denHigh : (den : ℚ) < 2 ^ ((den.log2 : ℤ) + 1) := by exact_mod_cast @Nat.lt_log2_self den
  have denPos : (0 : ℚ) < den := by exact_mod_cast hden
  constructor
  · rw [le_div_iff₀ denPos]
    calc (2 : ℚ) ^ ((num.log2 : ℤ) - den.log2 - 1) * den
        ≤ 2 ^ ((num.log2 : ℤ) - den.log2 - 1) * 2 ^ ((den.log2 : ℤ) + 1) := by gcongr
      _ = 2 ^ (num.log2 : ℤ) := by
        rw [← zpow_add₀ (by norm_num)]
        congr 1
        omega
      _ ≤ num := numLow
  · rw [div_lt_iff₀ denPos]
    calc (num : ℚ) < 2 ^ ((num.log2 : ℤ) + 1) := numHigh
      _ = 2 ^ ((num.log2 : ℤ) - den.log2 + 1) * 2 ^ (den.log2 : ℤ) := by
        rw [← zpow_add₀ (by norm_num)]
        congr 1
        omega
      _ ≤ 2 ^ ((num.log2 : ℤ) - den.log2 + 1) * den := by gcongr

theorem timesPower_le_iff {num den : Nat} (hden : 0 < den) (e : ℤ) :
    timesPower den 2 e ≤ timesPower num 2 (-e) ↔ (2 : ℚ) ^ e ≤ num / den := by
  have quotient := timesPower_div num den (by decide : 0 < 2) e
  have pos : (0 : ℚ) < timesPower den 2 e := by exact_mod_cast timesPower_pos hden (by decide) e
  rw [← Nat.cast_le (α := ℚ), ← one_le_div pos, quotient, Nat.cast_ofNat, one_le_div (by positivity)]

theorem unitOf_eq {num den : Nat} (hnum : 0 < num) (hden : 0 < den) :
    unitOf num den = max (Int.log 2 ((num : ℚ) / den) - 52) (-1074) := by
  have pos : (0 : ℚ) < (num : ℚ) / den := by positivity
  obtain ⟨low, high⟩ := quotient_bounds hnum hden
  rw [unitOf]
  simp only [timesPower_le_iff hden]
  generalize (num.log2 : ℤ) - den.log2 = lead at low high ⊢
  split_ifs with reaches
  · rw [log_eq pos reaches high]
  · have less : (num : ℚ) / den < 2 ^ (lead - 1 + 1) := by
      rw [sub_add_cancel]
      exact not_le.1 reaches
    rw [log_eq pos low less]
    congr 1
    ring

/-! ## The mantissa and the scale -/

variable (x : Double)

theorem cast_fractionCount : (fractionCount : ℚ) = 2 ^ (52 : ℤ) := by
  norm_num [fractionCount]

theorem scale_ge : -1074 ≤ x.scale := by
  rw [scale]
  omega

theorem scale_le : x.scale ≤ 971 := by
  have finite := x.finite
  rw [scale]
  have : x.magnitude / fractionCount < 2047 := Nat.div_lt_of_lt_mul (by rwa [Nat.mul_comm])
  omega

theorem mantissa_lt : x.mantissa < 2 * fractionCount := by
  rw [mantissa]
  have := Nat.mod_lt x.magnitude (by decide : 0 < fractionCount)
  split_ifs <;> omega

theorem mantissa_pos {x : Double} (nonzero : x.magnitude ≠ 0) : 0 < x.mantissa := by
  rw [mantissa]
  have : 0 < fractionCount := by decide
  split_ifs <;> omega

/-- All bits of the mantissa are used, except at the least scale. -/
theorem mantissa_ge_or : fractionCount ≤ x.mantissa ∨ x.scale = -1074 := by
  rw [mantissa, scale]
  split_ifs with subnormal
  · right
    rw [Nat.div_eq_of_lt subnormal]
    rfl
  · left
    omega

theorem magnitude_eq : (x.scale + 1074).toNat * fractionCount + x.mantissa = x.magnitude := by
  have split := Nat.div_add_mod x.magnitude fractionCount
  rw [mantissa, scale]
  split_ifs with subnormal
  · rw [Nat.div_eq_of_lt subnormal]
    simp
  · have normal : 1 ≤ x.magnitude / fractionCount := by
      rw [Nat.one_le_div_iff (by decide)]
      omega
    obtain ⟨e, he⟩ := Nat.exists_eq_add_of_le' normal
    have exponent : (((max (e + 1) 1 : ℕ) : ℤ) - 1075 + 1074).toNat = e := by omega
    rw [he, exponent]
    rw [he, Nat.mul_comm, Nat.add_mul] at split
    omega

theorem isNarrowBelow_of {x : Double} (power : x.mantissa = fractionCount) (above : -1074 < x.scale) :
    x.isNarrowBelow = true := by
  have whole := x.magnitude_eq
  rw [power] at whole
  have : 0 < (x.scale + 1074).toNat := by omega
  obtain ⟨e, he⟩ := Nat.exists_eq_add_of_le' this
  have multiple : x.magnitude = (e + 2) * fractionCount := by
    rw [← whole, he]
    ring
  rw [isNarrowBelow, multiple, Nat.mul_mod_left, beq_self_eq_true, Bool.true_and, decide_eq_true_eq]
  exact Nat.mul_le_mul_right _ (by omega)

/-- A number is between the midpoints to the neighbours of a double, or on one that belongs to it. -/
structure Near (r : ℚ) : Prop where
  above : Below (x.mantissa % 2 = 0)
    (((4 * x.mantissa - if x.isNarrowBelow then 1 else 2 : ℕ) : ℚ) * 2 ^ (x.scale - 2)) r
  below : Below (x.mantissa % 2 = 0) r ((4 * x.mantissa + 2 : ℕ) * 2 ^ (x.scale - 2))

variable {x}

section Near

variable {r : ℚ} (near : x.Near r) (nonzero : x.magnitude ≠ 0)
include near

theorem Near.below_units : Below (x.mantissa % 2 = 0) (r / 2 ^ x.scale) (x.mantissa + 1 / 2) := by
  have unit : (2 : ℚ) ^ x.scale = 2 ^ (x.scale - 2) * 4 := by
    rw [zpow_sub₀ (by norm_num)]
    norm_num
  have pos : (0 : ℚ) < 2 ^ x.scale := by positivity
  rw [← below_mul_iff pos, div_mul_cancel₀ _ pos.ne']
  have midpoint : ((x.mantissa : ℚ) + 1 / 2) * 2 ^ x.scale = (4 * x.mantissa + 2 : ℕ) * 2 ^ (x.scale - 2) := by
    rw [unit]
    push_cast
    ring
  rw [midpoint]
  exact near.below

theorem Near.lt_power : r < 2 ^ (x.scale + 53) := by
  have bound : (x.mantissa : ℚ) + 1 ≤ 2 * fractionCount := by exact_mod_cast x.mantissa_lt
  have units : r / 2 ^ x.scale < 2 * fractionCount := by linarith [near.below_units.le]
  rw [div_lt_iff₀ (by positivity), cast_fractionCount] at units
  rw [show x.scale + 53 = 1 + 52 + x.scale by ring, zpow_add₀ (by norm_num), zpow_add₀ (by norm_num), zpow_one]
  exact units

include nonzero

theorem Near.above_quarters :
    Below (x.mantissa % 2 = 0) ((x.mantissa : ℚ) - (if x.isNarrowBelow then 1 else 2) / 4) (r / 2 ^ x.scale) := by
  have unit : (2 : ℚ) ^ x.scale = 2 ^ (x.scale - 2) * 4 := by
    rw [zpow_sub₀ (by norm_num)]
    norm_num
  have pos : (0 : ℚ) < 2 ^ x.scale := by positivity
  have mantissaPos := mantissa_pos nonzero
  rw [← below_mul_iff pos, div_mul_cancel₀ _ pos.ne']
  have midpoint : ((x.mantissa : ℚ) - (if x.isNarrowBelow then 1 else 2) / 4) * 2 ^ x.scale =
      (4 * x.mantissa - if x.isNarrowBelow then 1 else 2 : ℕ) * 2 ^ (x.scale - 2) := by
    rw [unit, Nat.cast_sub (by split_ifs <;> omega)]
    push_cast
    ring
  rw [midpoint]
  exact near.above

/-- The lower midpoint is nowhere further away than half a last place. -/
theorem Near.above_units : Below (x.mantissa % 2 = 0) (x.mantissa - 1 / 2) (r / 2 ^ x.scale) := by
  have above := near.above_quarters nonzero
  split_ifs at above
  · exact Or.inl (lt_of_lt_of_le (by linarith) above.le)
  · convert above using 1
    ring

theorem Near.pos : 0 < r := by
  have above := (near.above_units nonzero).le
  have mantissaPos : (1 : ℚ) ≤ x.mantissa := by exact_mod_cast mantissa_pos nonzero
  have units : 0 < r / 2 ^ x.scale := by linarith
  exact (div_pos_iff_of_pos_right (by positivity)).1 units

end Near

section Quotient

variable {num den : Nat} (hnum : 0 < num) (hden : 0 < den) (nonzero : x.magnitude ≠ 0)
  (near : x.Near ((num : ℚ) / den))
include hnum hden nonzero near

/-- A number that uses all bits of the mantissa, or is at the least scale, is counted in last places of the double. -/
theorem Near.magnitude_of_ge (full : (fractionCount : ℚ) ≤ num / den / 2 ^ x.scale ∨ x.scale = -1074) :
    (unitOf num den + 1074).toNat * fractionCount + countUnits num den (unitOf num den) = x.magnitude := by
  have pos : (0 : ℚ) < num / den := by positivity
  have high := near.lt_power
  have unit : unitOf num den = x.scale := by
    rw [unitOf_eq hnum hden]
    obtain least | bottom := full
    · have low : (2 : ℚ) ^ (x.scale + 52) ≤ num / den := by
        rw [le_div_iff₀ (by positivity), cast_fractionCount] at least
        rwa [add_comm, zpow_add₀ (by norm_num)]
      rw [log_eq pos low (by rwa [add_assoc])]
      have := x.scale_ge
      omega
    · have := (Int.lt_zpow_iff_log_lt (by decide : 1 < 2) pos).1 (by exact_mod_cast high)
      omega
  rw [unit, countUnits_eq hden (near.above_units nonzero) near.below_units, magnitude_eq]

/-- Below a power of two there are smaller units, but what is near to the power is rounded up to it. -/
theorem Near.magnitude_of_lt (less : (num : ℚ) / den / 2 ^ x.scale < fractionCount) (above : x.scale ≠ -1074) :
    (unitOf num den + 1074).toNat * fractionCount + countUnits num den (unitOf num den) = x.magnitude := by
  have pos : (0 : ℚ) < num / den := by positivity
  have scale_ge := x.scale_ge
  have power : x.mantissa = fractionCount := by
    have atLeast : fractionCount ≤ x.mantissa := x.mantissa_ge_or.resolve_right above
    have atMost : (x.mantissa : ℚ) < fractionCount + 1 := by linarith [(near.above_units nonzero).le]
    have : x.mantissa < fractionCount + 1 := by exact_mod_cast atMost
    omega
  -- the neighbour below a power of two is only half as far away, so the number is above half of it
  have narrow := (near.above_quarters nonzero).le
  rw [isNarrowBelow_of power (by omega), if_pos rfl, power] at narrow
  have count : (1 : ℚ) ≤ fractionCount := by exact_mod_cast (by decide : 1 ≤ fractionCount)
  have low : (2 : ℚ) ^ (x.scale + 51) ≤ num / den := by
    have half : (2 : ℚ) ^ (51 : ℤ) ≤ num / den / 2 ^ x.scale := by
      have : (2 : ℚ) ^ (51 : ℤ) = fractionCount / 2 := by norm_num [fractionCount]
      linarith
    rw [le_div_iff₀ (by positivity)] at half
    rwa [add_comm, zpow_add₀ (by norm_num)]
  have high : (num : ℚ) / den < 2 ^ (x.scale + 51 + 1) := by
    rw [div_lt_iff₀ (by positivity), cast_fractionCount] at less
    rwa [add_assoc, add_comm, zpow_add₀ (by norm_num)]
  have unit : unitOf num den = x.scale - 1 := by
    rw [unitOf_eq hnum hden, log_eq pos low high]
    omega
  have doubled : (num : ℚ) / den / 2 ^ (x.scale - 1) = 2 * (num / den / 2 ^ x.scale) := by
    rw [zpow_sub_one₀ (by norm_num), div_mul_eq_div_div]
    ring
  -- twice as many of the smaller units; that count is even, so a number on the midpoint is rounded up too
  have counted : countUnits num den (x.scale - 1) = 2 * fractionCount := by
    have even : 2 * fractionCount % 2 = 0 := Nat.mul_mod_right 2 fractionCount
    refine countUnits_eq hden (.of_le ?_ even) (.of_le ?_ even)
    · rw [doubled]
      push_cast
      linarith
    · rw [doubled]
      push_cast
      linarith
  rw [unit, counted, ← x.magnitude_eq, power]
  obtain ⟨e, he⟩ : ∃ e : ℕ, x.scale = e - 1073 := ⟨(x.scale + 1073).toNat, by omega⟩
  rw [he, show ((e : ℤ) - 1073 - 1 + 1074).toNat = e by omega, show ((e : ℤ) - 1073 + 1074).toNat = e + 1 by omega]
  ring

end Quotient

/-- Rounding a quotient that is near a double gives the double. -/
theorem nearest?_of_near {num den : Nat} (hden : 0 < den) (nonzero : x.magnitude ≠ 0)
    (near : x.Near ((num : ℚ) / den)) : nearest? x.negative num den = some x := by
  have hnum : 0 < num := by
    have pos := near.pos nonzero
    rw [div_pos_iff_of_pos_right (by exact_mod_cast hden)] at pos
    exact_mod_cast pos
  have rounded : (unitOf num den + 1074).toNat * fractionCount + countUnits num den (unitOf num den) = x.magnitude := by
    by_cases full : (fractionCount : ℚ) ≤ num / den / 2 ^ x.scale ∨ x.scale = -1074
    · exact near.magnitude_of_ge hnum hden nonzero full
    · rw [not_or, not_le] at full
      exact near.magnitude_of_lt hnum hden nonzero full.1 full.2
  rw [nearest?, if_neg hnum.ne']
  simp only [rounded, dif_pos x.finite]

end BucketBench.Double
