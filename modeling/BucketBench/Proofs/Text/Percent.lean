import BucketBench.Proofs.Text.Utf8
import BucketBench.Text.Percent

set_option autoImplicit false

namespace BucketBench.Percent

inductive Escaped : List Char → Prop where
  | nil : Escaped []
  | plain {c : Char} {rest : List Char} (unreserved : isUnreserved c = true) (more : Escaped rest) : Escaped (c :: rest)
  | escape {a b : Char} {rest : List Char} (high : a ∈ "0123456789ABCDEF".toList) (low : b ∈ "0123456789ABCDEF".toList)
      (more : Escaped rest) : Escaped ('%' :: a :: b :: rest)

theorem isUnreserved_of_digit : ∀ c ∈ "0123456789ABCDEF".toList, isUnreserved c = true := by
  have all : "0123456789ABCDEF".toList.all isUnreserved = true := by decide
  exact List.all_eq_true.1 all

theorem Escaped.not_mem {s : List Char} (h : Escaped s) {mark : Char} (reserved : isUnreserved mark = false)
    (other : mark ≠ '%') : mark ∉ s := by
  have ne : ∀ {c : Char}, isUnreserved c = true → mark ≠ c := by
    rintro c unreserved rfl
    rw [reserved] at unreserved
    cases unreserved
  induction h with
  | nil => exact List.not_mem_nil
  | plain unreserved _ ih => exact List.not_mem_cons_of_ne_of_not_mem (ne unreserved) ih
  | escape high low _ ih =>
    have first := ne (isUnreserved_of_digit _ high)
    have second := ne (isUnreserved_of_digit _ low)
    simp [other, first, second, ih]

theorem toNat_high (b : UInt8) : (b / 16).toNat = b.toNat / 16 := UInt8.toNat_div b 16

theorem toNat_low (b : UInt8) : (b % 16).toNat = b.toNat % 16 := UInt8.toNat_mod b 16

theorem high_lt (b : UInt8) : (b / 16).toNat < 16 := by
  have bound := b.toNat_lt
  rw [toNat_high]
  omega

theorem low_lt (b : UInt8) : (b % 16).toNat < 16 := by
  rw [toNat_low]
  omega

theorem high_low (b : UInt8) : 16 * (b / 16) + b % 16 = b := by
  have bound := b.toNat_lt
  have sixteen : (16 : UInt8).toNat = 16 := rfl
  apply UInt8.toNat_inj.1
  rw [UInt8.toNat_add, UInt8.toNat_mul, toNat_high, toNat_low, sixteen]
  omega

theorem upperDigit_cases : ∀ n : Fin 16, Hex.digit? (Hex.upperDigit (UInt8.ofNat n.val)) = some (UInt8.ofNat n.val) ∧
    Hex.upperDigit (UInt8.ofNat n.val) ∈ "0123456789ABCDEF".toList := by decide

theorem upperDigit_of_lt {n : UInt8} (h : n.toNat < 16) :
    Hex.digit? (Hex.upperDigit n) = some n ∧ Hex.upperDigit n ∈ "0123456789ABCDEF".toList := by
  have cases := upperDigit_cases ⟨n.toNat, h⟩
  simpa only [UInt8.ofNat_toNat] using cases

theorem ofText_ascii : ∀ n : Fin 128, Bytes.ofText (Char.ofNat n.val).toString = [UInt8.ofNat n.val] := by
  decide +kernel

/-- A byte is written as the character that it is, or as an escape. -/
theorem encodeByte_cases (keep : Char → Bool) (b : UInt8) :
    (∃ c, encodeByte keep b = [c] ∧ keep c = true ∧ Bytes.ofText c.toString = [b]) ∨
      encodeByte keep b = escapeByte b := by
  simp only [encodeByte]
  split
  · rename_i kept
    simp only [Bool.and_eq_true, decide_eq_true_eq] at kept
    have bytes := ofText_ascii ⟨b.toNat, UInt8.lt_iff_toNat_lt.1 kept.1⟩
    rw [UInt8.ofNat_toNat] at bytes
    exact Or.inl ⟨_, rfl, kept.2, bytes⟩
  · exact Or.inr rfl

theorem decodeBytes?_cons {c : Char} (plain : c ≠ '%') (rest : List Char) :
    decodeBytes? (c :: rest) = (decodeBytes? rest).map (Bytes.ofText c.toString ++ ·) := by
  rw [decodeBytes?.eq_3 c rest fun _ _ _ same _ => plain same, if_neg plain]
  cases decodeBytes? rest <;> rfl

theorem decodeBytes?_escapeByte (b : UInt8) (rest : List Char) :
    decodeBytes? (escapeByte b ++ rest) = (decodeBytes? rest).map (b :: ·) := by
  have high := (upperDigit_of_lt (high_lt b)).1
  have low := (upperDigit_of_lt (low_lt b)).1
  simp only [escapeByte, List.cons_append, List.nil_append, decodeBytes?, high, low, Option.bind_eq_bind,
    Option.bind_some, high_low]
  cases decodeBytes? rest <;> rfl

theorem decodeBytes?_encodeByte {keep : Char → Bool} (unkept : keep '%' = false) (b : UInt8) (rest : List Char) :
    decodeBytes? (encodeByte keep b ++ rest) = (decodeBytes? rest).map (b :: ·) := by
  obtain ⟨c, written, kept, bytes⟩ | written := encodeByte_cases keep b
  · have plain : c ≠ '%' := by
      rintro rfl
      rw [unkept] at kept
      cases kept
    rw [written, List.singleton_append, decodeBytes?_cons plain, bytes]
    rfl
  · rw [written, decodeBytes?_escapeByte]

theorem decode?_encode {keep : Char → Bool} (unkept : keep '%' = false) (s : String) :
    decode? (encode keep s) = some s := by
  have each : ∀ bytes : Bytes, decodeBytes? (bytes.flatMap (encodeByte keep)) = some bytes := by
    intro bytes
    induction bytes with
    | nil => rfl
    | cons b rest ih => rw [List.flatMap_cons, decodeBytes?_encodeByte unkept, ih, Option.map_some]
  rw [decode?, encode, String.toList_ofList, each, Option.bind_some, Bytes.text?_ofText]

theorem decode?_segment (s : String) : decode? (segment s) = some s := decode?_encode (by decide) s

theorem escaped_segment (s : String) : Escaped (segment s).toList := by
  rw [segment, encode, String.toList_ofList]
  induction Bytes.ofText s with
  | nil => exact .nil
  | cons b rest ih =>
    rw [List.flatMap_cons]
    obtain ⟨c, written, kept, -⟩ | written := encodeByte_cases isUnreserved b
    · rw [written]
      exact .plain kept ih
    · rw [written]
      exact .escape (upperDigit_of_lt (high_lt b)).2 (upperDigit_of_lt (low_lt b)).2 ih

end BucketBench.Percent
