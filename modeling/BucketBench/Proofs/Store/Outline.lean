import BucketBench.Proofs.Json.Alike
import BucketBench.Proofs.Store.Write

set_option autoImplicit false

namespace BucketBench

namespace Value

/-- The value itself, and of a document only that it is one. -/
def outline : Value → Value
  | .object _ => .object []
  | v => v

variable {v w : Value}

@[simp] theorem isObject_outline (v : Value) : v.outline.isObject = v.isObject := by
  cases v <;> rfl

theorem Alike.isObject_eq (h : v.Alike w) : v.isObject = w.isObject := by
  obtain ⟨d, e, rfl, rfl⟩ | ⟨other, other'⟩ := h.objects
  · rfl
  · rw [other, other']

theorem outline_of_not_object (h : v.isObject = false) : v.outline = v := by
  cases v with
  | object members => cases h
  | _ => rfl

theorem alike_outline (h : v.Alike w) : v.outline.Alike w.outline := by
  obtain ⟨d, e, rfl, rfl⟩ | ⟨other, other'⟩ := h.objects
  · exact .refl rfl
  · rwa [outline_of_not_object other, outline_of_not_object other']

theorem alike_of_alike_outline (other : v.isObject = false) (h : v.outline.Alike w.outline) : v.Alike w := by
  have other' : w.isObject = false := by
    rw [← isObject_outline, ← h.isObject_eq, isObject_outline, other]
  rwa [outline_of_not_object other, outline_of_not_object other'] at h

end Value

abbrev OutlinesAlike (a b : Option Value) : Prop := FindAlike (a.map Value.outline) (b.map Value.outline)

theorem FindAlike.outlines {a b : Option Value} (h : FindAlike a b) : OutlinesAlike a b := by
  cases h with
  | none => exact .none
  | some alike => exact .some (Value.alike_outline alike)

theorem OutlinesAlike.alike {v w : Value} (h : OutlinesAlike (some v) (some w)) : v.outline.Alike w.outline := by
  cases h with
  | some alike => exact alike

theorem OutlinesAlike.eq_none {b : Option Value} (h : OutlinesAlike none b) : b = none := by
  cases b with
  | none => rfl
  | some w => cases h

theorem OutlinesAlike.exists_some {v : Value} {b : Option Value} (h : OutlinesAlike (some v) b) : ∃ w, b = some w := by
  cases b with
  | none => cases h
  | some w => exact ⟨w, rfl⟩

open Document (below)

theorem Document.below_nil (v : Value) : below [] v = some v := if_pos rfl

theorem Document.below_object_cons (key : String) (place : List String) (d : Document) :
    below (key :: place) (.object d) = (d.get? key).bind (below place) :=
  at?_append place (List.cons_ne_nil key [])

theorem Value.alike_of_outlines {v w : Value} (hv : v.isWellKeyed = true) (hw : w.isWellKeyed = true)
    (h : ∀ place, OutlinesAlike (below place v) (below place w)) : v.Alike w := by
  induction v using Value.induct generalizing w with
  | object members ih =>
    obtain ⟨others, rfl⟩ : ∃ others, w = .object others := by
      have top : (object members).outline.Alike w.outline := (h []).alike
      have kind : w.isObject = true := by
        rw [← isObject_outline, ← top.isObject_eq]
        rfl
      cases w with
      | object others => exact ⟨others, rfl⟩
      | _ => cases kind
    refine Document.alike_object_iff.2 ⟨Document.nodup_keys hv, Document.nodup_keys hw, fun key => ?_⟩
    have inside := fun place => h (key :: place)
    simp only [Document.below_object_cons] at inside
    have here : OutlinesAlike (Document.get? key members) (Document.get? key others) := by
      simpa only [funext Document.below_nil, Option.bind_fun_some] using inside []
    cases hm : Document.get? key members with
    | none =>
      rw [hm] at here
      rw [here.eq_none]
      exact .none
    | some x =>
      rw [hm] at here inside
      obtain ⟨y, hy⟩ := here.exists_some
      rw [hy] at inside ⊢
      have keyedX := Document.isWellKeyed_of_get? hv hm
      have keyedY := Document.isWellKeyed_of_get? hw hy
      exact .some (ih (key, x) (Document.mem_of_get? hm) keyedX keyedY inside)
  | _ => exact alike_of_alike_outline rfl (h []).alike

namespace Document

variable {d e : Document}

theorem alike_of_outlines (hd : d.isWellKeyed = true) (he : e.isWellKeyed = true)
    (h : ∀ place, OutlinesAlike (d.at? place) (e.at? place)) : (Value.object d).Alike (.object e) := by
  refine Value.alike_of_outlines hd he fun place => ?_
  cases place with
  | nil => exact .some (.refl rfl)
  | cons key place => exact h (key :: place)

theorem outline_unsetAt_above {place rest : List String} (more : rest ≠ []) (d : Document) :
    ((unsetAt (place ++ rest) d).at? place).map Value.outline = (d.at? place).map Value.outline := by
  by_cases h : ∃ inner, d.at? place = some (.object inner)
  · obtain ⟨inner, hi⟩ := h
    obtain ⟨inner', hi'⟩ := at?_unsetAt_above more hi
    rw [hi, hi']
    rfl
  · cases place with
    | nil => rfl
    | cons key place => rw [unsetAt_of_not_object_above (List.cons_ne_nil key place) more fun inner hi => h ⟨inner, hi⟩]

/-- An unset value leaves no trace in the outlines of what is not inside its place. -/
theorem outline_unsetAt {path place : List String} (outside : ¬ path <+: place) (keyed : d.isWellKeyed = true) :
    ((unsetAt path d).at? place).map Value.outline = (d.at? place).map Value.outline := by
  rcases inside_or_around_or_apart path place with ⟨rest, rfl⟩ | ⟨rest, more, rfl⟩ | apart
  · exact absurd (List.prefix_append path rest) outside
  · exact outline_unsetAt_above more d
  · rw [at?_unsetAt_of_apart apart keyed]

end Document

end BucketBench
