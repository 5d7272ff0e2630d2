import BucketBench.Proofs.Json.Same
import Mathlib.Data.List.Forall2

set_option autoImplicit false

namespace BucketBench

open List (Forall₂)

namespace Value

structure Alike (v w : Value) : Prop where
  left : v.isWellKeyed = true
  right : w.isWellKeyed = true
  same : v.same w = true

theorem alike_iff (v w : Value) :
    v.Alike w ↔ v.isWellKeyed = true ∧ w.isWellKeyed = true ∧ v.same w = true :=
  ⟨fun h => ⟨h.left, h.right, h.same⟩, fun ⟨left, right, same⟩ => ⟨left, right, same⟩⟩

namespace Alike

variable {v w u : Value}

theorem refl (keyed : v.isWellKeyed = true) : v.Alike v := ⟨keyed, keyed, same_refl keyed⟩

theorem symm (h : v.Alike w) : w.Alike v := ⟨h.right, h.left, same_symm h.left h.right h.same⟩

theorem trans (h : v.Alike w) (k : w.Alike u) : v.Alike u :=
  ⟨h.left, k.right, same_trans h.left h.right k.right h.same k.same⟩

/-- Alike values compare with others in the same way. -/
theorem same_congr {v' w' : Value} (h : v.Alike v') (k : w.Alike w') : v.same w = v'.same w' := by
  rw [Bool.eq_iff_iff]
  constructor
  · intro same
    have middle : v.Alike w := ⟨h.left, k.left, same⟩
    exact ((h.symm.trans middle).trans k).same
  · intro same
    have middle : v'.Alike w' := ⟨h.right, k.right, same⟩
    exact ((h.trans middle).trans k.symm).same

theorem objects (h : v.Alike w) :
    (∃ d e, v = .object d ∧ w = .object e) ∨ v.isObject = false ∧ w.isObject = false := by
  have same := h.same
  cases v <;> cases w <;> simp_all [Value.same, isObject]

theorem arrays (h : v.Alike w) :
    (∃ items others, v = .array items ∧ w = .array others) ∨ v.isArray = false ∧ w.isArray = false := by
  have same := h.same
  cases v <;> cases w <;> simp_all [Value.same, isArray]

end Alike

theorem alike_array_cons_iff {v w : Value} {rest more : List Value} :
    (array (v :: rest)).Alike (array (w :: more)) ↔ v.Alike w ∧ (array rest).Alike (array more) := by
  simp only [alike_iff, isWellKeyed, areWellKeyed, same, sameItems, Bool.and_eq_true]
  tauto

theorem alike_array_iff {items others : List Value} :
    (array items).Alike (array others) ↔ Forall₂ Alike items others := by
  induction items generalizing others with
  | nil =>
    cases others with
    | nil => exact iff_of_true (.refl rfl) .nil
    | cons w more => exact iff_of_false (fun h => by simpa [same, sameItems] using h.same) (by simp)
  | cons v rest ih =>
    cases others with
    | nil => exact iff_of_false (fun h => by simpa [same, sameItems] using h.same) (by simp)
    | cons w more => rw [alike_array_cons_iff, List.forall₂_cons, ih]

theorem alike_isIn {v w : Value} {items others : List Value} (h : v.Alike w) (pairs : Forall₂ Alike items others) :
    v.isIn items = w.isIn others := by
  induction pairs with
  | nil => rfl
  | cons first _ ih =>
    simp only [isIn, List.any_cons] at ih ⊢
    rw [first.same_congr h, ih]

end Value

abbrev FindAlike : Option Value → Option Value → Prop := Option.Rel Value.Alike

namespace FindAlike

variable {a b : Option Value} {v : Value}

theorem of_agree (h : Agree a b) (left : ∀ v, a = some v → v.isWellKeyed = true)
    (right : ∀ v, b = some v → v.isWellKeyed = true) : FindAlike a b := by
  cases h with
  | none => exact .none
  | some same => exact .some ⟨left _ rfl, right _ rfl, same⟩

theorem agree (h : FindAlike a b) : Agree a b := by
  cases h with
  | none => exact .none
  | some alike => exact .some alike.same

theorem symm (h : FindAlike a b) : FindAlike b a := by
  cases h with
  | none => exact .none
  | some alike => exact .some alike.symm

theorem left (h : FindAlike a b) (found : a = some v) : v.isWellKeyed = true := by
  subst found
  cases h with
  | some alike => exact alike.left

theorem eq_none (h : FindAlike a b) (absent : a = none) : b = none := by
  subst absent
  cases h
  rfl

theorem exists_some (h : FindAlike a b) (found : a = some v) : ∃ w, b = some w ∧ v.Alike w := by
  subst found
  cases h with
  | some alike => exact ⟨_, rfl, alike⟩

theorem isSome_eq (h : FindAlike a b) : a.isSome = b.isSome := by cases h <;> rfl

end FindAlike

namespace Document

open Value (Alike)

theorem isWellKeyed_of_findAlike {d e : Document} (nodup : d.keys.Nodup)
    (find : ∀ key, FindAlike (d.get? key) (e.get? key)) : d.isWellKeyed = true := by
  refine (isWellKeyed_iff d).2 ⟨nodup, fun m hm => ?_⟩
  exact (find m.1).left (get?_of_mem nodup hm)

theorem alike_object_iff {d e : Document} :
    (Value.object d).Alike (.object e) ↔
      d.keys.Nodup ∧ e.keys.Nodup ∧ ∀ key, FindAlike (d.get? key) (e.get? key) := by
  constructor
  · rintro ⟨keyed, keyed', same⟩
    refine ⟨nodup_keys keyed, nodup_keys keyed', fun key => ?_⟩
    have agree := (Value.same_object_iff (nodup_keys keyed) (nodup_keys keyed')).1 same key
    exact .of_agree agree (fun v => isWellKeyed_of_get? keyed) fun v => isWellKeyed_of_get? keyed'
  · rintro ⟨nodup, nodup', find⟩
    exact ⟨isWellKeyed_of_findAlike nodup find, isWellKeyed_of_findAlike nodup' fun key => (find key).symm,
      (Value.same_object_iff nodup nodup').2 fun key => (find key).agree⟩

section Pair

variable {d e : Document} {v w : Value} {key : String}

theorem alike_get? (h : (Value.object d).Alike (.object e)) (key : String) : FindAlike (d.get? key) (e.get? key) :=
  (alike_object_iff.1 h).2.2 key

theorem alike_insert (h : (Value.object d).Alike (.object e)) (key : String) (hv : v.Alike w) :
    (Value.object (d.insert key v)).Alike (.object (e.insert key w)) := by
  obtain ⟨nodup, nodup', find⟩ := alike_object_iff.1 h
  refine alike_object_iff.2 ⟨nodup_keys_insert key v nodup, nodup_keys_insert key w nodup', fun other => ?_⟩
  rw [get?_insert, get?_insert]
  split
  · exact .some hv
  · exact find other

theorem alike_remove (h : (Value.object d).Alike (.object e)) (key : String) :
    (Value.object (d.remove key)).Alike (.object (e.remove key)) := by
  obtain ⟨nodup, nodup', find⟩ := alike_object_iff.1 h
  refine alike_object_iff.2 ⟨nodup_keys_remove key nodup, nodup_keys_remove key nodup', fun other => ?_⟩
  rw [get?_remove key other nodup, get?_remove key other nodup']
  split
  · exact .none
  · exact find other

end Pair

end Document

end BucketBench
