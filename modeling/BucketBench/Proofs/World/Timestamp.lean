import BucketBench.Proofs.Number.Digits
import BucketBench.Proofs.World.Calendar

set_option autoImplicit false

namespace BucketBench

theorem Text.not_isBlank_of_isDigit {c : Char} (h : c.isDigit = true) : Text.isBlank c = false := by
  have range : 48 ≤ c.toNat ∧ c.toNat ≤ 57 := Char.isDigit_iff_toNat.1 h
  simp only [Text.isBlank, Text.inRanges, Text.blankRanges]
  simp
  omega

namespace Timestamp

open Digits

section Padded

variable {width n : Nat}

theorem toList_padded (width n : Nat) : (padded width n).toList =
    List.replicate (width - (toString n).length) '0' ++ (toString n).toList := by
  simp [padded]

theorem allDigits_padded (width n : Nat) : AllDigits (padded width n).toList := by
  rw [toList_padded]
  exact (allDigits_zeros _).append (allDigits_toString n)

theorem decimalValue_padded (width n : Nat) : decimalValue (padded width n).toList = n := by
  rw [toList_padded, decimalValue_append (allDigits_zeros _) (allDigits_toString n), decimalValue_zeros,
    decimalValue_toString, Nat.mul_zero, Nat.zero_add]

theorem length_padded (pos : 0 < width) (small : n < 10 ^ width) : (padded width n).toList.length = width := by
  have short := (length_toString_le_iff pos).2 small
  rw [toList_padded, List.length_append, List.length_replicate, String.length_toList]
  omega

theorem padded_ne_nil (width n : Nat) : (padded width n).toList ≠ [] := by
  rw [toList_padded]
  simp

end Padded

theorem dropWhile_isBlank_digits {ds rest : List Char} (digits : AllDigits ds) (nonempty : ds ≠ []) :
    (ds ++ rest).dropWhile Text.isBlank = ds ++ rest := by
  obtain ⟨c, more, rfl⟩ := List.exists_cons_of_ne_nil nonempty
  rw [List.cons_append, List.dropWhile_cons_of_neg]
  simp [Text.not_isBlank_of_isDigit (digits c List.mem_cons_self)]

theorem readNumber?_padded {width n : Nat} (pos : 0 < width) (small : n < 10 ^ width) (rest : List Char) :
    readNumber? width ((padded width n).toList ++ rest) = some (n, rest) := by
  have digits := allDigits_padded width n
  have length := length_padded pos small
  have value := decimalValue_padded width n
  have nonempty := padded_ne_nil width n
  rw [readNumber?, dropWhile_isBlank_digits digits nonempty]
  generalize (padded width n).toList = ds at *
  have spanned : spanDigits (ds ++ []) = (ds, []) := spanDigits_append digits (by simp)
  rw [List.append_nil] at spanned
  simp only [List.take_left' length, spanned]
  rw [value, List.drop_left]

theorem readMark?_cons {mark : Char} (solid : Text.isBlank mark = false) (rest : List Char) :
    readMark? mark (mark :: rest) = some rest := by
  rw [readMark?, List.dropWhile_cons_of_neg (by simp [solid])]
  simp

theorem readYear?_sign {ds rest : List Char} (digits : AllDigits ds) (nonempty : ds ≠ [])
    (stop : ∀ c ∈ rest.head?, c.isDigit = false) :
    readYear? ('-' :: (ds ++ rest)) = some (-(decimalValue ds : Int), rest) ∧
      readYear? ('+' :: (ds ++ rest)) = some ((decimalValue ds : Int), rest) := by
  obtain ⟨c, more, rfl⟩ := List.exists_cons_of_ne_nil nonempty
  have spanned := spanDigits_append digits stop
  constructor
  · rw [readYear?, List.dropWhile_cons_of_neg (by decide)]
    simp only [spanned]
  · rw [readYear?, List.dropWhile_cons_of_neg (by decide)]
    simp only [spanned]

theorem readYear?_yearText (year : Int) {rest : List Char} (stop : ∀ c ∈ rest.head?, c.isDigit = false) :
    readYear? ((yearText year).toList ++ rest) = some (year, rest) := by
  unfold yearText
  split_ifs with plain negative
  · have small : year.toNat < 10 ^ 4 := by omega
    have digits := allDigits_padded 4 year.toNat
    have nonempty := padded_ne_nil 4 year.toNat
    have number := readNumber?_padded (by decide) small rest
    rw [readYear?, dropWhile_isBlank_digits digits nonempty]
    obtain ⟨c, more, e⟩ := List.exists_cons_of_ne_nil nonempty
    have digit : c.isDigit = true := digits c (e ▸ List.mem_cons_self)
    rw [e] at number ⊢
    split
    · rename_i h
      cases h
      cases digit
    · rename_i h
      cases h
      cases digit
    · rw [number, Option.map_some]
      simp only [Int.toNat_of_nonneg plain.1]
  · have signed := (readYear?_sign (allDigits_padded 4 year.natAbs) (padded_ne_nil _ _) stop).1
    rw [decimalValue_padded] at signed
    rw [String.toList_append, show "-".toList = ['-'] from rfl, List.append_assoc, List.singleton_append, signed]
    have size : -(year.natAbs : Int) = year := by omega
    rw [size]
  · have signed := (readYear?_sign (allDigits_padded 4 year.natAbs) (padded_ne_nil _ _) stop).2
    rw [decimalValue_padded] at signed
    rw [String.toList_append, show "+".toList = ['+'] from rfl, List.append_assoc, List.singleton_append, signed]
    have size : (year.natAbs : Int) = year := by omega
    rw [size]

theorem readFraction?_padded {width n : Nat} (pos : 0 < width) (short : width ≤ 9) (small : n < 10 ^ width)
    {rest : List Char} (stop : ∀ c ∈ rest.head?, c.isDigit = false) :
    readFraction? ('.' :: ((padded width n).toList ++ rest)) = some (n * 10 ^ (9 - width), rest) := by
  have spanned := spanDigits_append (allDigits_padded width n) stop
  have length := length_padded pos small
  have value := decimalValue_padded width n
  have nonempty := padded_ne_nil width n
  simp only [readFraction?]
  generalize (padded width n).toList = ds at *
  obtain ⟨c, more, rfl⟩ := List.exists_cons_of_ne_nil nonempty
  have whole : (c :: more).take 9 = c :: more := List.take_of_length_le (by omega)
  simp only [spanned, whole, value, length]
  rfl

theorem readFraction?_fractionText {nanos : Nat} (small : nanos < 1000000000) (rest : List Char) :
    readFraction? ((fractionText nanos).toList ++ 'Z' :: rest) = some (nanos, 'Z' :: rest) := by
  have stop : ∀ c ∈ ('Z' :: rest).head?, c.isDigit = false := by simp
  unfold fractionText
  split_ifs with none millis micros
  · rw [none]
    rfl
  all_goals rw [String.toList_append, show ".".toList = ['.'] from rfl, List.append_assoc, List.singleton_append]
  · have whole : nanos / 1000000 * 10 ^ (9 - 3) = nanos := by omega
    rw [readFraction?_padded (by decide) (by decide) (by omega) stop, whole]
  · have whole : nanos / 1000 * 10 ^ (9 - 6) = nanos := by omega
    rw [readFraction?_padded (by decide) (by decide) (by omega) stop, whole]
  · have whole : nanos * 10 ^ (9 - 9) = nanos := by omega
    rw [readFraction?_padded (by decide) (by decide) (by omega) stop, whole]

/-- The moments that their texts tell: a leap second goes on only from the last second of a minute, and the year is one
that is read. -/
structure IsTold (t : Timestamp) : Prop where
  nanos : t.nanos < 1000000000 ∨ t.nanos < 2000000000 ∧ t.seconds % 60 = 59
  year : (Day.ofNumber (t.seconds / 86400)).year ∈ years

theorem toList_textWith (fraction : Nat → String) (t : Timestamp) :
    (t.textWith fraction).toList =
      (yearText (Day.ofNumber (t.seconds / 86400)).year).toList ++
        '-' :: ((padded 2 (Day.ofNumber (t.seconds / 86400)).month).toList ++
        '-' :: ((padded 2 (Day.ofNumber (t.seconds / 86400)).day).toList ++
        'T' :: ((padded 2 ((t.seconds % 86400).toNat / 3600)).toList ++
        ':' :: ((padded 2 ((t.seconds % 86400).toNat / 60 % 60)).toList ++
        ':' :: ((padded 2 ((t.seconds % 86400).toNat % 60 + t.nanos / 1000000000)).toList ++
        ((fraction (t.nanos % 1000000000)).toList ++ ['Z'])))))) := by
  have own (s : String) : toString s = s := rfl
  have marks : "-".toList = ['-'] ∧ "T".toList = ['T'] ∧ ":".toList = [':'] ∧ "Z".toList = ['Z'] := by decide
  simp only [textWith, String.toList_append, List.append_assoc, own, marks, List.cons_append, List.nil_append]

/-- The written hours, minutes and seconds make up the second of the day, a leap second counting as the one before. -/
theorem IsTold.clock {t : Timestamp} (told : t.IsTold) :
    (((t.seconds % 86400).toNat / 3600 : Nat) : Int) * 3600 + (((t.seconds % 86400).toNat / 60 % 60 : Nat) : Int) * 60 +
        (((t.seconds % 86400).toNat % 60 + t.nanos / 1000000000 -
          ((t.seconds % 86400).toNat % 60 + t.nanos / 1000000000) / 60 : Nat) : Int) = t.seconds % 86400 ∧
      t.nanos % 1000000000 + ((t.seconds % 86400).toNat % 60 + t.nanos / 1000000000) / 60 * 1000000000 = t.nanos ∧
      (t.seconds % 86400).toNat % 60 + t.nanos / 1000000000 ≤ 60 ∧ (t.seconds % 86400).toNat / 3600 < 24 := by
  have nanos := told.nanos
  have low : 0 ≤ t.seconds % 86400 := by omega
  have high : t.seconds % 86400 < 86400 := by omega
  have minute : t.seconds % 60 = t.seconds % 86400 % 60 := by omega
  rw [minute] at nanos
  generalize t.seconds % 86400 = second at *
  omega

theorem ofText?_text {t : Timestamp} (told : t.IsTold) : ofText? t.text = some t := by
  have valid := Day.isValid_ofNumber (t.seconds / 86400)
  have number := Day.toNumber_ofNumber (t.seconds / 86400)
  have ranges := Day.bounds_of_isValid valid
  have year := told.year
  obtain ⟨clock, nanos, second, hour⟩ := told.clock
  have dash : Text.isBlank '-' = false := by decide
  have colon : Text.isBlank ':' = false := by decide
  have offset : readOffset? (List.dropWhile Text.isBlank ['Z']) = some (0, []) := by decide
  have whole : t.seconds / 86400 * 86400 + t.seconds % 86400 = t.seconds := by omega
  rw [ofText?, text, toList_textWith]
  refine Option.bind_eq_some_iff.2 ⟨_, readYear?_yearText _ (by simp), ?_⟩
  refine Option.bind_eq_some_iff.2 ⟨_, readMark?_cons dash _, ?_⟩
  refine Option.bind_eq_some_iff.2 ⟨_, readNumber?_padded (by decide) (by omega) _, ?_⟩
  refine Option.bind_eq_some_iff.2 ⟨_, readMark?_cons dash _, ?_⟩
  refine Option.bind_eq_some_iff.2 ⟨_, readNumber?_padded (by decide) (by omega) _, ?_⟩
  refine Option.bind_eq_some_iff.2 ⟨_, rfl, ?_⟩
  refine Option.bind_eq_some_iff.2 ⟨_, readNumber?_padded (by decide) (by omega) _, ?_⟩
  refine Option.bind_eq_some_iff.2 ⟨_, readMark?_cons colon _, ?_⟩
  refine Option.bind_eq_some_iff.2 ⟨_, readNumber?_padded (by decide) (by omega) _, ?_⟩
  refine Option.bind_eq_some_iff.2 ⟨_, readMark?_cons colon _, ?_⟩
  refine Option.bind_eq_some_iff.2 ⟨_, readNumber?_padded (by decide) (by omega) _, ?_⟩
  refine Option.bind_eq_some_iff.2 ⟨_, readFraction?_fractionText (by omega) _, ?_⟩
  refine Option.bind_eq_some_iff.2 ⟨_, offset, ?_⟩
  simp only [clock, nanos, number, Int.sub_zero, whole]
  rw [if_pos ⟨valid, year, year, hour, Nat.mod_lt _ (by decide), second, by rfl⟩]

end Timestamp

end BucketBench
