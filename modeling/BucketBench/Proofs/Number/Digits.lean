import BucketBench.Number.Digits
import Mathlib.Algebra.Group.Nat.Defs
import Mathlib.Data.List.Basic
import Mathlib.Data.List.TakeDrop

set_option autoImplicit false

namespace BucketBench.Digits

def AllDigits (s : List Char) : Prop := ∀ c ∈ s, c.isDigit = true

theorem isSome_digit? (c : Char) : (digit? c).isSome = c.isDigit := by
  have same : c.isDigit = decide ('0' ≤ c ∧ c ≤ '9') := by
    rw [Char.isDigit, Bool.decide_and]
    rfl
  rw [digit?, same]
  split_ifs with digit
  · exact (decide_eq_true digit).symm
  · exact (decide_eq_false digit).symm

theorem digit?_of_isDigit {c : Char} (h : c.isDigit = true) : digit? c = some (c.toNat - 48) := by
  rw [← isSome_digit?, digit?] at h
  rw [digit?]
  split_ifs at h ⊢ with digit
  · rfl
  · cases h

theorem AllDigits.append {s t : List Char} (hs : AllDigits s) (ht : AllDigits t) : AllDigits (s ++ t) :=
  List.forall_mem_append.2 ⟨hs, ht⟩

theorem AllDigits.of_append {s t : List Char} (h : AllDigits (s ++ t)) : AllDigits s ∧ AllDigits t :=
  List.forall_mem_append.1 h

theorem allDigits_zeros (n : Nat) : AllDigits (List.replicate n '0') := by
  intro c hc
  rw [List.eq_of_mem_replicate hc]
  rfl

theorem decimalValue_eq {s : List Char} (h : AllDigits s) : decimalValue s = Nat.ofDigitChars 10 s 0 := by
  rw [Nat.ofDigitChars_eq_foldl, decimalValue]
  apply List.foldl_ext
  intro n c hc
  rw [digit?_of_isDigit (h c hc)]
  rfl

theorem decimalValue_append {s t : List Char} (hs : AllDigits s) (ht : AllDigits t) :
    decimalValue (s ++ t) = 10 ^ t.length * decimalValue s + decimalValue t := by
  rw [decimalValue_eq hs, decimalValue_eq ht, decimalValue_eq (hs.append ht), Nat.ofDigitChars_append,
    Nat.ofDigitChars_eq_ofDigitChars_zero]

theorem decimalValue_lt {s : List Char} (h : AllDigits s) : decimalValue s < 10 ^ s.length := by
  induction s with
  | nil => decide
  | cons c rest ih =>
    obtain ⟨first, digits⟩ := AllDigits.of_append (s := [c]) h
    have digit := first c List.mem_cons_self
    have value : decimalValue [c] = c.toNat - 48 := by
      rw [decimalValue, List.foldl_cons, List.foldl_nil, digit?_of_isDigit digit]
      simp
    have last : c.toNat ≤ 57 := (Char.isDigit_iff_toNat.1 digit).2
    have less := ih digits
    rw [← List.singleton_append, decimalValue_append first digits, value, List.length_append, List.length_singleton,
      Nat.pow_add]
    have : 10 ^ rest.length * (c.toNat - 48) ≤ 10 ^ rest.length * 9 := Nat.mul_le_mul_left _ (by omega)
    omega

theorem decimalValue_zeros (n : Nat) : decimalValue (List.replicate n '0') = 0 := by
  rw [decimalValue_eq (allDigits_zeros n), Nat.ofDigitChars_replicate_zero, Nat.mul_zero]

/-- The digits end where the first other character stands. -/
theorem spanDigits_append {s rest : List Char} (h : AllDigits s)
    (stop : ∀ c ∈ rest.head?, c.isDigit = false) : spanDigits (s ++ rest) = (s, rest) := by
  have digits : ∀ c ∈ s, (digit? c).isSome = true := fun c hc => by rw [isSome_digit?, h c hc]
  rw [spanDigits, List.span_eq_takeWhile_dropWhile, List.takeWhile_append_of_pos digits,
    List.dropWhile_append_of_pos digits]
  cases rest with
  | nil => simp
  | cons c rest =>
    have other : (digit? c).isSome = false := by rw [isSome_digit?, stop c rfl]
    simp [other]

theorem toList_toString (n : Nat) : (toString n).toList = Nat.toDigits 10 n := by
  rw [Nat.toString_eq_repr, Nat.repr_eq_ofList_toDigits, String.toList_ofList]

theorem allDigits_toString (n : Nat) : AllDigits (toString n).toList := by
  rw [toList_toString]
  exact fun c hc => Nat.isDigit_of_mem_toDigits (by decide) (by decide) hc

theorem toString_ne_nil (n : Nat) : (toString n).toList ≠ [] := by
  rw [toList_toString]
  exact Nat.toDigits_ne_nil

theorem decimalValue_toString (n : Nat) : decimalValue (toString n).toList = n := by
  rw [decimalValue_eq (allDigits_toString n), toList_toString, Nat.ofDigitChars_ten_toDigits]

theorem length_toString_pos (n : Nat) : 0 < (toString n).length := by
  rw [← String.length_toList]
  exact List.length_pos_iff.2 (toString_ne_nil n)

theorem length_toString_le_iff {n k : Nat} (pos : 0 < k) : (toString n).length ≤ k ↔ n < 10 ^ k := by
  rw [← String.length_toList, toList_toString]
  exact Nat.length_toDigits_le_iff (by decide) pos

theorem lt_pow_length (n : Nat) : n < 10 ^ (toString n).length :=
  (length_toString_le_iff (length_toString_pos n)).1 (Nat.le_refl _)

theorem pow_le_of_pos {n : Nat} (pos : 0 < n) : 10 ^ ((toString n).length - 1) ≤ n := by
  by_cases one : (toString n).length = 1
  · rw [one]
    exact pos
  · have := length_toString_pos n
    by_contra less
    have := (length_toString_le_iff (by omega)).2 (Nat.lt_of_not_le less)
    omega

/-- Only zero begins with a zero. -/
theorem head?_toString_ne {n : Nat} (pos : 0 < n) : (toString n).toList.head? ≠ some '0' := by
  intro zero
  obtain ⟨rest, digits⟩ := List.head?_eq_some_iff.1 zero
  have all := allDigits_toString n
  have value := decimalValue_toString n
  have length := pow_le_of_pos pos
  rw [← String.length_toList, digits, List.length_cons, Nat.add_sub_cancel] at length
  rw [digits] at all value
  rw [← List.singleton_append] at all value
  have less := decimalValue_lt all.of_append.2
  rw [decimalValue_append all.of_append.1 all.of_append.2, show decimalValue ['0'] = 0 from rfl] at value
  omega

end BucketBench.Digits
