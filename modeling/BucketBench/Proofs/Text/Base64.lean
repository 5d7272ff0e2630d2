import BucketBench.Text.Base64
import BucketBench.Text.Blank

set_option autoImplicit false

namespace BucketBench.Base64

/-! ## Digits -/

theorem digit_eq_of_value? {c : Char} {n : Nat} (h : value? c = some n) : n < 64 ∧ digit n = c := by
  have code : ∀ {a b : Char}, a ≤ b ↔ a.toNat ≤ b.toNat := Iff.rfl
  have chars : ∀ {m : Nat}, m = c.toNat → Char.ofNat m = c := fun e => e ▸ Char.ofNat_toNat c
  unfold value? at h
  split at h
  · rename_i upper
    have low : 65 ≤ c.toNat := code.1 upper.1
    have high : c.toNat ≤ 90 := code.1 upper.2
    cases h
    have small : c.toNat - 65 < 26 := by omega
    exact ⟨by omega, by rw [digit, if_pos small, chars (by omega)]⟩
  split at h
  · rename_i lower
    have low : 97 ≤ c.toNat := code.1 lower.1
    have high : c.toNat ≤ 122 := code.1 lower.2
    cases h
    have large : ¬ c.toNat - 71 < 26 := by omega
    have small : c.toNat - 71 < 52 := by omega
    exact ⟨by omega, by rw [digit, if_neg large, if_pos small, chars (by omega)]⟩
  split at h
  · rename_i decimal
    have low : 48 ≤ c.toNat := code.1 decimal.1
    have high : c.toNat ≤ 57 := code.1 decimal.2
    cases h
    have large : ¬ c.toNat + 4 < 52 := by omega
    have small : c.toNat + 4 < 62 := by omega
    exact ⟨by omega, by rw [digit, if_neg (by omega), if_neg large, if_pos small, chars (by omega)]⟩
  split at h
  · rename_i plus
    cases h
    exact ⟨by decide, plus.symm⟩
  split at h
  · rename_i slash
    cases h
    exact ⟨by decide, slash.symm⟩
  · cases h

theorem value?_of_lt {n : Nat} (h : n < 64) : value? (digit n) = some n := value?_digit ⟨n, h⟩

theorem digit_ne_pad_of_lt {n : Nat} (h : n < 64) : digit n ≠ '=' := digit_ne_pad ⟨n, h⟩

theorem not_isBlank_digit : ∀ n : Fin 64, Text.isBlank (digit n.val) = false := by decide

/-! ## Groups of four digits -/

structure IsGroup (last : Bool) (bytes : Bytes) : Prop where
  nonempty : bytes ≠ []
  short : bytes.length ≤ 3
  full : last = false → bytes.length = 3

theorem IsGroup.last_of_short {last : Bool} {bytes : Bytes} (h : IsGroup last bytes) (less : bytes.length < 3) :
    last = true := by
  cases last with
  | true => rfl
  | false =>
    have three := h.full rfl
    omega

theorem toNat_toUInt8 {n : Nat} (h : n < 256) : n.toUInt8.toNat = n := UInt8.toNat_ofNat_of_lt' h

theorem toUInt8_eq {n : Nat} {b : UInt8} (h : n = b.toNat) : n.toUInt8 = b := by
  rw [h]
  exact UInt8.ofNat_toNat

section Digits

variable {p q r s : Nat} (hp : p < 64) (hq : q < 64)
include hp hq

theorem decodeGroup?_one (unused : q % 16 = 0) :
    decodeGroup? true (digit p) (digit q) '=' '=' = some [(4 * p + q / 16).toUInt8] := by
  simp [decodeGroup?, value?_of_lt hp, value?_of_lt hq, unused]

theorem decodeGroup?_two (hr : r < 64) (unused : r % 4 = 0) :
    decodeGroup? true (digit p) (digit q) (digit r) '=' =
      some [(4 * p + q / 16).toUInt8, (q % 16 * 16 + r / 4).toUInt8] := by
  simp [decodeGroup?, value?_of_lt hp, value?_of_lt hq, value?_of_lt hr, digit_ne_pad_of_lt hr, unused]

theorem decodeGroup?_three (hr : r < 64) (hs : s < 64) (last : Bool) :
    decodeGroup? last (digit p) (digit q) (digit r) (digit s) =
      some [(4 * p + q / 16).toUInt8, (q % 16 * 16 + r / 4).toUInt8, (r % 4 * 64 + s).toUInt8] := by
  simp [decodeGroup?, value?_of_lt hp, value?_of_lt hq, value?_of_lt hr, value?_of_lt hs, digit_ne_pad_of_lt hs]

end Digits

theorem decodeGroup?_encode {last : Bool} {w x y z : Char} {bytes : Bytes} (group : IsGroup last bytes)
    (h : [w, x, y, z] = encode bytes) : decodeGroup? last w x y z = some bytes := by
  have bound : ∀ b : UInt8, b.toNat < 256 := UInt8.toNat_lt
  match bytes with
  | [] => exact absurd rfl group.nonempty
  | [a] =>
    obtain rfl : last = true := group.last_of_short (by simp)
    simp only [encode, List.cons.injEq, and_true] at h
    obtain ⟨rfl, rfl, rfl, rfl⟩ := h
    have ha := bound a
    rw [decodeGroup?_one (by omega) (by omega) (by omega), toUInt8_eq (b := a) (by omega)]
  | [a, b] =>
    obtain rfl : last = true := group.last_of_short (by simp)
    simp only [encode, List.cons.injEq, and_true] at h
    obtain ⟨rfl, rfl, rfl, rfl⟩ := h
    have ha := bound a
    have hb := bound b
    rw [decodeGroup?_two (by omega) (by omega) (by omega) (by omega), toUInt8_eq (b := a) (by omega),
      toUInt8_eq (b := b) (by omega)]
  | [a, b, c] =>
    simp only [encode, List.cons.injEq, and_true] at h
    obtain ⟨rfl, rfl, rfl, rfl⟩ := h
    have ha := bound a
    have hb := bound b
    have hc := bound c
    rw [decodeGroup?_three (by omega) (by omega) (by omega) (by omega), toUInt8_eq (b := a) (by omega),
      toUInt8_eq (b := b) (by omega), toUInt8_eq (b := c) (by omega)]
  | _ :: _ :: _ :: _ :: rest => exact absurd group.short (by simp)

theorem eq_encode_of_decodeGroup? {last : Bool} {w x y z : Char} {bytes : Bytes}
    (h : decodeGroup? last w x y z = some bytes) : IsGroup last bytes ∧ [w, x, y, z] = encode bytes := by
  simp only [decodeGroup?, Option.bind_eq_bind, Option.bind_eq_some_iff] at h
  obtain ⟨p, hw, q, hx, h⟩ := h
  obtain ⟨hp, rfl⟩ := digit_eq_of_value? hw
  obtain ⟨hq, rfl⟩ := digit_eq_of_value? hx
  have byte : (4 * p + q / 16).toUInt8.toNat = 4 * p + q / 16 := toNat_toUInt8 (by omega)
  -- one, two or three bytes; the bits that a short group leaves unused are zero, so no second text reads as it
  split at h
  · rename_i padded
    simp only [Bool.and_eq_true, beq_iff_eq] at padded
    obtain ⟨⟨rfl, rfl⟩, rfl⟩ := padded
    split at h
    · rename_i unused
      cases h
      refine ⟨⟨by simp, by simp, by simp⟩, ?_⟩
      rw [encode, byte, show (4 * p + q / 16) / 4 = p by omega, show (4 * p + q / 16) % 4 * 16 = q by omega]
    · cases h
  · simp only [Option.bind_eq_some_iff] at h
    obtain ⟨r, hy, h⟩ := h
    obtain ⟨hr, rfl⟩ := digit_eq_of_value? hy
    have byte' : (q % 16 * 16 + r / 4).toUInt8.toNat = q % 16 * 16 + r / 4 := toNat_toUInt8 (by omega)
    split at h
    · rename_i padded
      simp only [Bool.and_eq_true, beq_iff_eq] at padded
      obtain ⟨rfl, rfl⟩ := padded
      split at h
      · rename_i unused
        cases h
        refine ⟨⟨by simp, by simp, by simp⟩, ?_⟩
        rw [encode, byte, byte', show (4 * p + q / 16) / 4 = p by omega,
          show (4 * p + q / 16) % 4 * 16 + (q % 16 * 16 + r / 4) / 16 = q by omega,
          show (q % 16 * 16 + r / 4) % 16 * 4 = r by omega]
      · cases h
    · simp only [Option.bind_eq_some_iff] at h
      obtain ⟨s, hz, h⟩ := h
      obtain ⟨hs, rfl⟩ := digit_eq_of_value? hz
      have byte'' : (r % 4 * 64 + s).toUInt8.toNat = r % 4 * 64 + s := toNat_toUInt8 (by omega)
      cases h
      refine ⟨⟨by simp, by simp, by simp⟩, ?_⟩
      rw [encode, byte, byte', byte'', show (4 * p + q / 16) / 4 = p by omega,
        show (4 * p + q / 16) % 4 * 16 + (q % 16 * 16 + r / 4) / 16 = q by omega,
        show (q % 16 * 16 + r / 4) % 16 * 4 + (r % 4 * 64 + s) / 64 = r by omega,
        show (r % 4 * 64 + s) % 64 = s by omega, encode]

/-! ## Whole texts -/

theorem isEmpty_encode (bytes : Bytes) : (encode bytes).isEmpty = bytes.isEmpty := by
  match bytes with
  | [] => rfl
  | [_] => rfl
  | [_, _] => rfl
  | _ :: _ :: _ :: _ => rfl

/-- Behind a group that is not the last one nothing but its digits depends on it. -/
theorem encode_append {group rest : Bytes} (h : IsGroup rest.isEmpty group) :
    encode (group ++ rest) = encode group ++ encode rest := by
  cases rest with
  | nil => simp [encode]
  | cons d rest =>
    match group, h.full rfl with
    | [_, _, _], _ => rfl

theorem decode?_cons (w x y z : Char) (rest : List Char) :
    decode? (w :: x :: y :: z :: rest) =
      (decodeGroup? rest.isEmpty w x y z).bind fun group => (decode? rest).map (group ++ ·) := by
  rw [decode?]
  cases decodeGroup? rest.isEmpty w x y z with
  | none => rfl
  | some group => cases decode? rest <;> rfl

theorem decode?_encode (bytes : Bytes) : decode? (encode bytes) = some bytes := by
  fun_induction encode bytes with
  | case1 => rfl
  | case2 a =>
    have group : IsGroup true [a] := ⟨by simp, by simp, by simp⟩
    rw [decode?_cons, List.isEmpty_nil, decodeGroup?_encode group rfl]
    rfl
  | case3 a b =>
    have group : IsGroup true [a, b] := ⟨by simp, by simp, by simp⟩
    rw [decode?_cons, List.isEmpty_nil, decodeGroup?_encode group rfl]
    rfl
  | case4 a b c rest ih =>
    have group : IsGroup (encode rest).isEmpty [a, b, c] := ⟨by simp, by simp, by simp⟩
    rw [decode?_cons, decodeGroup?_encode group rfl, ih]
    rfl

theorem eq_encode_of_decode? {s : List Char} {bytes : Bytes} (h : decode? s = some bytes) : s = encode bytes := by
  fun_induction decode? s generalizing bytes with
  | case1 =>
    cases h
    rfl
  | case2 w x y z rest ih =>
    obtain ⟨group, hg, h⟩ := Option.bind_eq_some_iff.1 h
    obtain ⟨more, hm, h⟩ := Option.bind_eq_some_iff.1 h
    obtain rfl := Option.some.inj h
    obtain ⟨short, digits⟩ := eq_encode_of_decodeGroup? hg
    obtain rfl := ih hm
    rw [isEmpty_encode] at short
    rw [encode_append short, ← digits]
    rfl
  | case3 => cases h

theorem decode?_eq_some_iff (s : List Char) (bytes : Bytes) : decode? s = some bytes ↔ s = encode bytes :=
  ⟨eq_encode_of_decode?, fun h => h ▸ decode?_encode bytes⟩

theorem not_isBlank_of_mem_encode {bytes : Bytes} {c : Char} (h : c ∈ encode bytes) : Text.isBlank c = false := by
  have bound : ∀ b : UInt8, b.toNat < 256 := UInt8.toNat_lt
  have digits : ∀ {n : Nat}, n < 64 → Text.isBlank (digit n) = false := fun lt => not_isBlank_digit ⟨_, lt⟩
  have pad : Text.isBlank '=' = false := by decide
  fun_induction encode bytes with
  | case1 => cases h
  | case2 a =>
    have ha := bound a
    simp only [List.mem_cons, List.not_mem_nil, or_false] at h
    rcases h with rfl | rfl | rfl | rfl
    · exact digits (by omega)
    · exact digits (by omega)
    · exact pad
    · exact pad
  | case3 a b =>
    have ha := bound a
    have hb := bound b
    simp only [List.mem_cons, List.not_mem_nil, or_false] at h
    rcases h with rfl | rfl | rfl | rfl
    · exact digits (by omega)
    · exact digits (by omega)
    · exact digits (by omega)
    · exact pad
  | case4 a b c rest ih =>
    have ha := bound a
    have hb := bound b
    have hc := bound c
    simp only [List.mem_cons] at h
    rcases h with rfl | rfl | rfl | rfl | h
    · exact digits (by omega)
    · exact digits (by omega)
    · exact digits (by omega)
    · exact digits (by omega)
    · exact ih h

end BucketBench.Base64
