import BucketBench.Number.Shortest
import BucketBench.Proofs.Number.Digits
import BucketBench.Proofs.Number.Rounding

set_option autoImplicit false

namespace BucketBench

theorem pow_toNat {base : Nat} (pos : 0 < base) (e : ℤ) :
    (base : ℚ) ^ e.toNat = (base : ℚ) ^ e * (base : ℚ) ^ (-e).toNat := by
  have nonzero : (base : ℚ) ≠ 0 := by exact_mod_cast pos.ne'
  obtain ⟨n, rfl | rfl⟩ := e.eq_nat_or_neg
  · simp
  · simp [nonzero]

section Compare

variable (a : Nat) (i : ℤ) (b : Nat) (j : ℤ)

theorem compareDecimal_eq :
    compareDecimal a i b j = cmp ((a : ℚ) * 10 ^ i) (b * 2 ^ j) := by
  have left : (Double.timesPower (Double.timesPower a 10 i) 2 (-j) : ℚ) =
      a * 10 ^ i * (10 ^ (-i).toNat * 2 ^ (-j).toNat) := by
    have ten := pow_toNat (by decide : 0 < 10) i
    rw [Double.cast_timesPower, Double.cast_timesPower]
    push_cast at ten ⊢
    rw [ten]
    ring
  have right : (Double.timesPower (Double.timesPower b 2 j) 10 (-i) : ℚ) =
      b * 2 ^ j * (10 ^ (-i).toNat * 2 ^ (-j).toNat) := by
    have two := pow_toNat (by decide : 0 < 2) j
    rw [Double.cast_timesPower, Double.cast_timesPower]
    push_cast at two ⊢
    rw [two]
    ring
  have pos : (0 : ℚ) < 10 ^ (-i).toNat * 2 ^ (-j).toNat := by positivity
  -- both sides times the powers that make them whole
  rw [← cmp_mul_pos_right pos, ← left, ← right, Nat.strictMono_cast.cmp_map_eq, compareDecimal, cmp_eq_compare]

theorem compareDecimal_lt_iff : compareDecimal a i b j = .lt ↔ (a : ℚ) * 10 ^ i < b * 2 ^ j := by
  rw [compareDecimal_eq, cmp_eq_lt_iff]

theorem compareDecimal_eq_iff : compareDecimal a i b j = .eq ↔ (a : ℚ) * 10 ^ i = b * 2 ^ j := by
  rw [compareDecimal_eq, cmp_eq_eq_iff]

theorem compareDecimal_gt_iff : compareDecimal a i b j = .gt ↔ (b : ℚ) * 2 ^ j < a * 10 ^ i := by
  rw [compareDecimal_eq, cmp_eq_gt_iff]

end Compare

namespace Decimal

def value (d : Decimal) : ℚ := d.digits * 10 ^ d.exponent

theorem value_strip (fuel : Nat) (d : Decimal) : (strip fuel d).value = d.value := by
  induction fuel generalizing d with
  | zero => rfl
  | succ fuel ih =>
    rw [strip]
    split_ifs with round
    · have whole : d.digits = 10 * (d.digits / 10) := by omega
      rw [ih, value, value, zpow_add_one₀ (by norm_num), mul_comm ((10 : ℚ) ^ d.exponent), ← mul_assoc]
      congr 1
      rw [mul_comm]
      exact_mod_cast whole.symm
    · rfl

end Decimal

namespace Double

variable {x : Double} {d : Decimal}

/-- A decimal reads back exactly when its value is near the double. -/
theorem reads_iff : x.reads d = true ↔ x.Near d.value := by
  simp only [reads, Bool.and_eq_true, Bool.or_eq_true, beq_iff_eq, compareDecimal_lt_iff, compareDecimal_eq_iff,
    compareDecimal_gt_iff]
  rw [← Decimal.value]
  constructor
  · rintro ⟨above, below⟩
    exact ⟨above.imp_right fun same => ⟨same.1, same.2.symm⟩, below⟩
  · rintro ⟨above, below⟩
    exact ⟨above.imp_right fun same => ⟨same.1, same.2.symm⟩, below⟩

theorem near_value_of_onGrid? {e : ℤ} (h : x.onGrid? e = some d) : x.Near d.value := by
  rw [← reads_iff]
  unfold onGrid? at h
  generalize timesPower (timesPower x.mantissa 2 x.scale) 10 (-e) / timesPower (timesPower 1 2 (-x.scale)) 10 e = below
    at h
  simp only at h
  split at h
  · rename_i reads _
    cases h
    exact reads
  · rename_i _ reads
    cases h
    exact reads
  · cases h
  · rename_i reads reads'
    split at h
    · cases h
      exact reads
    · cases h
      exact reads'
    · cases h
      obtain even | odd := Nat.mod_two_eq_zero_or_one below
      · rwa [even, Nat.add_zero]
      · rwa [odd]

theorem value_exact (x : Double) : x.exact.value = x.mantissa * 2 ^ x.scale := by
  rw [exact, Decimal.value, cast_timesPower, cast_timesPower]
  obtain ⟨n, same | same⟩ := x.scale.eq_nat_or_neg
  · rw [same, min_eq_right (by omega)]
    simp
  · rw [same, min_eq_left (by omega)]
    have ten : (10 : ℚ) ^ n = 2 ^ n * 5 ^ n := by
      rw [← mul_pow]
      norm_num
    simp only [neg_neg, Int.toNat_natCast, Int.toNat_neg_natCast, pow_zero, mul_one, zpow_neg, zpow_natCast, ten,
      Nat.cast_ofNat]
    field_simp

theorem near_value_exact (nonzero : x.magnitude ≠ 0) : x.Near x.exact.value := by
  have pos := mantissa_pos nonzero
  have quarter : (x.mantissa : ℚ) * 2 ^ x.scale = (4 * x.mantissa : ℕ) * 2 ^ (x.scale - 2) := by
    rw [zpow_sub₀ (by norm_num)]
    push_cast
    ring
  rw [value_exact, quarter]
  constructor
  · left
    gcongr
    split_ifs <;> omega
  · left
    gcongr
    omega

/-- The digits that are written for a double are near it. -/
theorem near_value_shortest (nonzero : x.magnitude ≠ 0) : x.Near x.shortest.value := by
  rw [shortest, if_neg nonzero]
  simp only [Decimal.value_strip]
  cases found : (List.range 17).findSome? fun n => x.onGrid? (x.decimalPoint - (n + 1 : Nat)) with
  | none => exact near_value_exact nonzero
  | some d =>
    obtain ⟨n, -, grid⟩ := List.exists_of_findSome?_eq_some found
    exact near_value_of_onGrid? grid

section Reading

variable {n : Nat} {e : ℤ} (nonzero : x.magnitude ≠ 0) (near : x.Near (n * 10 ^ e))
include nonzero near

theorem Near.digits_pos : 0 < n := by
  have pos := near.pos nonzero
  rw [mul_pos_iff_of_pos_right (by positivity)] at pos
  exact_mod_cast pos

/-- A decimal near a double is not so large that it is refused for its length alone. -/
theorem Near.top_le : ((toString n).length : ℤ) + e ≤ 400 := by
  by_contra large
  have pos := near.digits_pos nonzero
  have digits : (10 : ℚ) ^ (((toString n).length : ℤ) - 1) ≤ n := by
    have length := Digits.length_toString_pos n
    rw [show ((toString n).length : ℤ) - 1 = ((toString n).length - 1 : ℕ) by omega]
    exact_mod_cast Digits.pow_le_of_pos pos
  have scale := x.scale_le
  have impossible : (10 : ℚ) ^ (400 : ℤ) < 2 ^ (1024 : ℤ) :=
    calc (10 : ℚ) ^ (400 : ℤ) ≤ 10 ^ (((toString n).length : ℤ) - 1 + e) := zpow_le_zpow_right₀ (by norm_num) (by omega)
      _ = 10 ^ (((toString n).length : ℤ) - 1) * 10 ^ e := zpow_add₀ (by norm_num) _ _
      _ ≤ n * 10 ^ e := by gcongr
      _ < 2 ^ (x.scale + 53) := near.lt_power
      _ ≤ 2 ^ (1024 : ℤ) := zpow_le_zpow_right₀ (by norm_num) (by omega)
  have : (10 : ℕ) ^ 400 < 2 ^ 1024 := by exact_mod_cast impossible
  exact absurd this (by decide +kernel)

theorem Near.le_top : -400 ≤ ((toString n).length : ℤ) + e := by
  by_contra small
  have digits : (n : ℚ) < 10 ^ ((toString n).length : ℤ) := by exact_mod_cast Digits.lt_pow_length n
  have scale := x.scale_ge
  have impossible : (2 : ℚ) ^ (-1075 : ℤ) < 10 ^ (-400 : ℤ) :=
    calc (2 : ℚ) ^ (-1075 : ℤ) ≤ 2 ^ (x.scale - 1) := zpow_le_zpow_right₀ (by norm_num) (by omega)
      _ = 1 / 2 * 2 ^ x.scale := by
        rw [zpow_sub_one₀ (by norm_num)]
        ring
      _ ≤ n * 10 ^ e := by
        rw [← le_div_iff₀ (by positivity)]
        have mantissa : (1 : ℚ) ≤ x.mantissa := by exact_mod_cast mantissa_pos nonzero
        linarith [(near.above_units nonzero).le]
      _ < 10 ^ ((toString n).length : ℤ) * 10 ^ e := by gcongr
      _ = 10 ^ (((toString n).length : ℤ) + e) := (zpow_add₀ (by norm_num) _ _).symm
      _ ≤ 10 ^ (-400 : ℤ) := zpow_le_zpow_right₀ (by norm_num) (by omega)
  rw [zpow_neg, zpow_neg, inv_lt_inv₀ (by positivity) (by positivity)] at impossible
  have : (10 : ℕ) ^ 400 < 2 ^ 1075 := by exact_mod_cast impossible
  exact absurd this (by decide +kernel)

/-- A decimal number near a double is read as that double. -/
theorem ofDecimal?_of_near : ofDecimal? x.negative n e = some x := by
  have pos := near.digits_pos nonzero
  have top := near.top_le nonzero
  have bottom := near.le_top nonzero
  rw [ofDecimal?, if_neg pos.ne']
  simp only
  rw [if_neg (by omega), if_neg (by omega)]
  split_ifs with whole
  · apply nearest?_of_near Nat.one_pos nonzero
    rw [cast_timesPower, Nat.cast_one, div_one, ← zpow_natCast, Int.toNat_of_nonneg whole]
    exact near
  · apply nearest?_of_near (timesPower_pos Nat.one_pos (by decide) _) nonzero
    rw [cast_timesPower, Nat.cast_one, one_mul, ← zpow_natCast, Int.toNat_of_nonneg (by omega), zpow_neg, div_inv_eq_mul]
    exact near

end Reading

end Double

end BucketBench
