import BucketBench.Client.Tags
import BucketBench.Proofs.Number.Digits
import BucketBench.Proofs.Outcome
import Mathlib.Data.List.Nodup

set_option autoImplicit false

namespace BucketBench

namespace Tags

theorem numberedText_injective (text : String) : Function.Injective (numberedText text) := by
  intro i j same
  have chars := congrArg String.toList same
  rw [numberedText, numberedText, String.toList_append, String.toList_append, List.append_right_inj] at chars
  rw [← Digits.decimalValue_toString i, chars, Digits.decimalValue_toString]

theorem nodup_numberedTexts (text : String) (count : Nat) : ((List.range count).map (numberedText text)).Nodup :=
  List.nodup_range.map (numberedText_injective text)

theorem keys_numbered (key value : String) (count : Nat) :
    (numbered key value count).map (·.1) = (List.range count).map (numberedText key) := by
  rw [numbered, List.map_map]
  rfl

theorem values_numbered (key value : String) (count : Nat) :
    (numbered key value count).map (·.2) = (List.range count).map (numberedText value) := by
  rw [numbered, List.map_map]
  rfl

theorem numbered_prefix (key value : String) {fewer count : Nat} (less : fewer ≤ count) :
    numbered key value fewer <+: numbered key value count := by
  have front : List.range fewer <+: List.range count := by
    rw [List.prefix_iff_eq_take, List.length_range, List.take_range, Nat.min_eq_left less]
  exact front.map _

theorem numberedText_ne (text : String) : numberedText text 0 ≠ numberedText text 1 :=
  (numberedText_injective text).ne Nat.zero_ne_one

end Tags

namespace TagLibrary

variable {lib : TagLibrary}

/-- With all their parts given, tags and tag sets can be put together, and show what they were put together from. -/
structure Lawful (lib : TagLibrary) : Prop where
  entry : ∀ key value, ∃ e, lib.entry (some key) (some value) = .ok e ∧ lib.key e = key ∧ lib.value e = value
  collect : ∀ entries, ∃ set, lib.collect (some entries) = .ok set ∧ lib.entries set = entries

theorem lawful_plain : plain.Lawful where
  entry key value := ⟨(key, value), rfl, rfl, rfl⟩
  collect entries := ⟨entries, rfl, rfl⟩

theorem mapM_entry (lawful : lib.Lawful) (tags : List Tags.Tag) :
    ∃ entries, tags.mapM (fun t => lib.entry (some t.1) (some t.2)) = .ok entries ∧ lib.toTags entries = tags := by
  induction tags with
  | nil => exact ⟨[], rfl, rfl⟩
  | cons t rest ih =>
    obtain ⟨e, made, key, value⟩ := lawful.entry t.1 t.2
    obtain ⟨entries, others, back⟩ := ih
    refine ⟨e :: entries, ?_, ?_⟩
    · rw [List.mapM_cons, made, others]
      rfl
    · rw [toTags, List.map_cons, key, value]
      exact congrArg (t :: ·) back

theorem ofTags_toTags (lawful : lib.Lawful) (call : String) (tags : List Tags.Tag) :
    ∃ set, lib.ofTags call tags = .ok set ∧ lib.toTags (lib.entries set) = tags := by
  obtain ⟨entries, made, back⟩ := mapM_entry lawful tags
  obtain ⟨set, collected, inside⟩ := lawful.collect entries
  refine ⟨set, ?_, by rw [inside, back]⟩
  exact bind_eq_ok_iff.2 ⟨entries, mapError_eq_ok_iff.2 made, mapError_eq_ok_iff.2 collected⟩

end TagLibrary

namespace Tags

/-- A set of numbered tags has as many tags as asked for, with different keys and different values, and begins with every
smaller one; it can always be put together and gives its tags back. Two tags share their key, or their value, and nothing else. -/
theorem numbered_distinct {lib : TagLibrary} (lawful : lib.Lawful) (call key value : String) (count : Nat) :
    (numbered key value count).length = count ∧
      ((numbered key value count).map (·.1)).Nodup ∧ ((numbered key value count).map (·.2)).Nodup ∧
      (∀ fewer ≤ count, numbered key value fewer <+: numbered key value count) ∧
      (∃ set, lib.ofTags call (numbered key value count) = .ok set ∧
        lib.toTags (lib.entries set) = numbered key value count) ∧
      (∃ a b, sharedKey key value = [(key, a), (key, b)] ∧ a ≠ b) ∧
      ∃ a b, sharedValue key value = [(a, value), (b, value)] ∧ a ≠ b := by
  refine ⟨by simp [numbered], ?_, ?_, fun _ => numbered_prefix key value, TagLibrary.ofTags_toTags lawful call _, ?_, ?_⟩
  · rw [keys_numbered]
    exact nodup_numberedTexts key count
  · rw [values_numbered]
    exact nodup_numberedTexts value count
  · exact ⟨_, _, rfl, numberedText_ne value⟩
  · exact ⟨_, _, rfl, numberedText_ne key⟩

/-- Keys that end in a digit and empty values, beyond the tenth tag. -/
theorem numbered_distinct_digits :
    TagLibrary.plain.Lawful ∧ ((numbered "a1" "" 12).map (·.1)).Nodup ∧ ((numbered "a1" "" 12).map (·.2)).Nodup ∧
      ∃ set, TagLibrary.plain.ofTags "set_bucket_tag" (numbered "a1" "" 12) = .ok set ∧
        TagLibrary.plain.toTags (TagLibrary.plain.entries set) = numbered "a1" "" 12 := by
  obtain ⟨-, keys, values, -, built, -⟩ := numbered_distinct TagLibrary.lawful_plain "set_bucket_tag" "a1" "" 12
  exact ⟨TagLibrary.lawful_plain, keys, values, built⟩

end Tags

end BucketBench
