import BucketBench.Text.Utf8

set_option autoImplicit false

namespace BucketBench.Bytes

theorem loop_toList (a : ByteArray) (i : Nat) (before : List UInt8) :
    ByteArray.toList.loop a i before = before.reverse ++ a.data.toList.drop i := by
  fun_induction ByteArray.toList.loop a i before with
  | case1 i before inside ih =>
    have inside' : i < a.data.toList.length := inside
    have here : a.get! i = a.data.toList[i] := getElem!_pos a.data i inside
    rw [ih, here, List.reverse_cons, List.append_assoc, List.singleton_append, ← List.drop_eq_getElem_cons inside']
  | case2 i before outside =>
    have none : a.data.toList.drop i = [] := List.drop_eq_nil_of_le (Nat.le_of_not_lt outside)
    rw [none, List.append_nil]

theorem toList_eq (a : ByteArray) : a.toList = a.data.toList := loop_toList a 0 []

theorem text?_ofText (s : String) : text? (ofText s) = some s := by
  have bytes : ByteArray.mk (ofText s).toArray = s.toByteArray := by
    rw [ofText, toList_eq]
    rfl
  rw [text?, bytes]
  exact dif_pos s.isValidUTF8

theorem text?_eq_some_iff (bytes : Bytes) (s : String) : text? bytes = some s ↔ bytes = ofText s := by
  constructor
  · intro h
    have valid : (ByteArray.mk bytes.toArray).IsValidUTF8 := by
      by_cases valid : (ByteArray.mk bytes.toArray).IsValidUTF8
      · exact valid
      · rw [text?, String.fromUTF8?, dif_neg valid] at h
        cases h
    rw [text?, String.fromUTF8?, dif_pos valid] at h
    obtain rfl := Option.some.inj h
    rw [ofText, toList_eq]
    rfl
  · rintro rfl
    exact text?_ofText s

end BucketBench.Bytes
