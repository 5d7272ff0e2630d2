import BucketBench.World.Timestamp
import Mathlib.Tactic.SplitIfs

set_option autoImplicit false

/-!
# Days and their numbers

Days are numbered through eras of 400 years that begin in March, so that a leap day is the last day of its year. Within
an era a day is told by whole centuries, whole cycles of four years and whole years, and these are what the quotients of
`Day.ofNumber` find. The number of the day that a number stands for is that number again, and every such day is one of
the calendar.
-/

namespace BucketBench.Day

/-- A day of an era after whole centuries, cycles of four years and years. The last day of a leap year comes at the end
of a cycle, and of a century only in the last one. -/
structure InEra (day century cycle year rest : Int) : Prop where
  centuries : 0 ≤ century ∧ century ≤ 3
  cycles : 0 ≤ cycle ∧ cycle ≤ 24
  years : 0 ≤ year ∧ year ≤ 3
  days : 0 ≤ rest ∧ rest ≤ 365
  leap : rest = 365 → year = 3 ∧ (cycle < 24 ∨ century = 3)
  sum : day = 36524 * century + 1461 * cycle + 365 * year + rest

theorem exists_inEra {day : Int} (low : 0 ≤ day) (high : day < 146097) :
    ∃ century cycle year rest, InEra day century cycle year rest := by
  obtain ⟨century, inCentury, centuries, left, sum⟩ : ∃ century r : Int, (0 ≤ century ∧ century ≤ 3) ∧
      (0 ≤ r ∧ (r < 36524 ∨ century = 3 ∧ r = 36524)) ∧ day = 36524 * century + r := by
    by_cases last : day = 146096
    · exact ⟨3, 36524, by omega⟩
    · exact ⟨day / 36524, day % 36524, by omega⟩
  obtain ⟨cycle, inCycle, cycles, left', sum'⟩ : ∃ cycle r : Int, (0 ≤ cycle ∧ cycle ≤ 24) ∧
      (0 ≤ r ∧ r ≤ 1460 ∧ (r = 1460 → cycle < 24 ∨ century = 3)) ∧ inCentury = 1461 * cycle + r := by
    by_cases last : inCentury = 36524
    · exact ⟨24, 1460, by omega⟩
    · exact ⟨inCentury / 1461, inCentury % 1461, by omega⟩
  obtain ⟨year, rest, years, left'', sum''⟩ : ∃ year r : Int, (0 ≤ year ∧ year ≤ 3) ∧
      (0 ≤ r ∧ r ≤ 365 ∧ (r = 365 → year = 3 ∧ inCycle = 1460)) ∧ inCycle = 365 * year + r := by
    by_cases last : inCycle = 1460
    · exact ⟨3, 365, by omega⟩
    · exact ⟨inCycle / 365, inCycle % 365, by omega⟩
  exact ⟨century, cycle, year, rest, centuries, cycles, years, ⟨left''.1, left''.2.1⟩, by omega, by omega⟩

def eraYear (day : Int) : Int := (day - day / 1460 + day / 36524 - day / 146096) / 365

def daysBefore (year : Int) : Int := 365 * year + year / 4 - year / 100

namespace InEra

variable {day century cycle year rest : Int}

theorem eraYear_eq (h : InEra day century cycle year rest) : eraYear day = 100 * century + 4 * cycle + year := by
  obtain ⟨centuries, cycles, years, days, leap, sum⟩ := h
  have fourths : day / 1460 = 25 * century + cycle ∧ rest ≤ 364 ∨
      day / 1460 = 25 * century + cycle + 1 ∧ 1 ≤ rest := by
    omega
  have ends : day / 36524 = century ∧ day / 146096 = 0 ∨
      day / 36524 = 4 ∧ day / 146096 = 1 ∧ century = 3 := by omega
  unfold eraYear
  generalize day / 1460 = fourth at fourths ⊢
  generalize day / 36524 = whole at ends ⊢
  generalize day / 146096 = last at ends ⊢
  omega

theorem daysBefore_eq (h : InEra day century cycle year rest) :
    daysBefore (100 * century + 4 * cycle + year) = day - rest := by
  obtain ⟨centuries, cycles, years, days, leap, sum⟩ := h
  unfold daysBefore
  omega

theorem isLeap_of_last (h : InEra day century cycle year rest) (last : rest = 365) (era : Int) :
    isLeap (100 * century + 4 * cycle + year + era * 400 + 1) = true := by
  obtain ⟨centuries, cycles, years, days, leap, sum⟩ := h
  rw [isLeap, Bool.and_eq_true, Bool.or_eq_true, beq_iff_eq, bne_iff_ne, beq_iff_eq]
  omega

end InEra

def ofMarch (year day : Int) : Day :=
  let monthFromMarch := (5 * day + 2) / 153
  let month := if monthFromMarch < 10 then monthFromMarch + 3 else monthFromMarch - 9
  ⟨year + (if month ≤ 2 then 1 else 0), month.toNat, (day - (153 * monthFromMarch + 2) / 5 + 1).toNat⟩

def marchNumber (year day : Int) : Int := year / 400 * 146097 + (daysBefore (year - year / 400 * 400) + day) - 719468

theorem ofNumber_eq (n : Int) :
    ofNumber n =
      let day := n + 719468 - (n + 719468) / 146097 * 146097
      ofMarch (eraYear day + (n + 719468) / 146097 * 400) (day - daysBefore (eraYear day)) := rfl

theorem toNumber_eq (d : Day) :
    d.toNumber = marchNumber (if d.month ≤ 2 then d.year - 1 else d.year)
      ((153 * (((d.month : Int) + 9) % 12) + 2) / 5 + d.day - 1) := by
  rw [toNumber, marchNumber, daysBefore, Int.mul_comm 365]

section March

variable {year day : Int}

theorem toNumber_ofMarch (low : 0 ≤ day) (high : day ≤ 365) : (ofMarch year day).toNumber = marchNumber year day := by
  have months : 0 ≤ (5 * day + 2) / 153 ∧ (5 * day + 2) / 153 ≤ 11 := by omega
  have start : 0 ≤ day - (153 * ((5 * day + 2) / 153) + 2) / 5 := by omega
  rw [toNumber_eq, ofMarch]
  generalize (5 * day + 2) / 153 = m at months start ⊢
  by_cases early : m < 10
  · have month : ¬ (m + 3).toNat ≤ 2 ∧ ¬ m + 3 ≤ 2 := by omega
    have back : (((m + 3).toNat : Int) + 9) % 12 = m := by omega
    simp only [early, if_true, month, if_false, back, Int.add_zero]
    congr 1
    omega
  · have month : (m - 9).toNat ≤ 2 ∧ m - 9 ≤ 2 := by omega
    have back : (((m - 9).toNat : Int) + 9) % 12 = m := by omega
    simp only [early, if_true, month, if_false, back]
    congr 1 <;> omega

theorem isValid_ofMarch (low : 0 ≤ day) (high : day ≤ 365) (leap : day = 365 → isLeap (year + 1) = true) :
    (ofMarch year day).isValid = true := by
  have months : 0 ≤ (5 * day + 2) / 153 ∧ (5 * day + 2) / 153 ≤ 11 := by omega
  have within : 153 * ((5 * day + 2) / 153) ≤ 5 * day + 2 ∧ 5 * day + 2 < 153 * ((5 * day + 2) / 153) + 153 := by omega
  rw [isValid, ofMarch, decide_eq_true_iff]
  generalize (5 * day + 2) / 153 = m at months within ⊢
  simp only
  by_cases february : m = 11
  · subst february
    have length : (day - (153 * 11 + 2) / 5 + 1).toNat ≤ monthLength (year + 1) 2 := by
      rw [monthLength, if_pos rfl]
      split_ifs with h
      · omega
      · have ordinary := mt leap h
        omega
    exact ⟨by decide, by decide, by omega, length⟩
  · obtain rfl | rfl | rfl | rfl | rfl | rfl | rfl | rfl | rfl | rfl | rfl : m = 0 ∨ m = 1 ∨ m = 2 ∨ m = 3 ∨ m = 4 ∨
        m = 5 ∨ m = 6 ∨ m = 7 ∨ m = 8 ∨ m = 9 ∨ m = 10 := by omega
    all_goals
      refine ⟨by decide, by decide, by omega, ?_⟩
      simp [monthLength]
      omega

end March

theorem exists_ofMarch (n : Int) : ∃ year day, ofNumber n = ofMarch year day ∧ marchNumber year day = n ∧ 0 ≤ day ∧
    day ≤ 365 ∧ (day = 365 → isLeap (year + 1) = true) := by
  have low : 0 ≤ n + 719468 - (n + 719468) / 146097 * 146097 := by omega
  have high : n + 719468 - (n + 719468) / 146097 * 146097 < 146097 := by omega
  have sum : n = (n + 719468) / 146097 * 146097 + (n + 719468 - (n + 719468) / 146097 * 146097) - 719468 := by omega
  rw [ofNumber_eq]
  generalize (n + 719468) / 146097 = era at low high sum ⊢
  generalize n + 719468 - era * 146097 = inEra at low high sum ⊢
  obtain ⟨century, cycle, year, rest, h⟩ := exists_inEra low high
  have before := h.daysBefore_eq
  have same : (100 * century + 4 * cycle + year + era * 400) / 400 = era := by
    have centuries := h.centuries
    have cycles := h.cycles
    have years := h.years
    omega
  refine ⟨100 * century + 4 * cycle + year + era * 400, rest, ?_, ?_, h.days.1, h.days.2,
    fun last => h.isLeap_of_last last era⟩
  · have day : inEra - (inEra - rest) = rest := by omega
    simp only [h.eraYear_eq, before, day]
  · rw [marchNumber, same, Int.add_sub_cancel, before]
    omega

theorem toNumber_ofNumber (n : Int) : (ofNumber n).toNumber = n := by
  obtain ⟨year, day, e, number, low, high, -⟩ := exists_ofMarch n
  rw [e, toNumber_ofMarch low high, number]

theorem isValid_ofNumber (n : Int) : (ofNumber n).isValid = true := by
  obtain ⟨year, day, e, -, low, high, leap⟩ := exists_ofMarch n
  rw [e]
  exact isValid_ofMarch low high leap

theorem bounds_of_isValid {d : Day} (valid : d.isValid = true) : d.month ≤ 12 ∧ d.day ≤ 31 := by
  have length : monthLength d.year d.month ≤ 31 := by
    unfold monthLength
    split_ifs <;> decide
  rw [isValid, decide_eq_true_iff] at valid
  omega

end BucketBench.Day
