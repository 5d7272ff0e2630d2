import BucketBench.Text.Blank
import Mathlib.Data.List.TakeWhile

set_option autoImplicit false

namespace BucketBench.Text

def AllBlank (s : List Char) : Prop := ∀ c ∈ s, isBlank c = true

theorem allBlank_takeWhile (s : List Char) : AllBlank (s.takeWhile isBlank) :=
  List.all_eq_true.1 List.all_takeWhile

/-- A text is what trimming leaves of it, between blanks. -/
theorem exists_trimChars (s : List Char) :
    ∃ lead tail, AllBlank lead ∧ AllBlank tail ∧ s = lead ++ trimChars s ++ tail := by
  let rest := s.dropWhile isBlank
  have blank : AllBlank (rest.reverse.takeWhile isBlank).reverse :=
    fun c hc => allBlank_takeWhile rest.reverse c (List.mem_reverse.1 hc)
  have split : rest = trimChars s ++ (rest.reverse.takeWhile isBlank).reverse := by
    rw [trimChars, trimEndChars, ← List.reverse_append, List.takeWhile_append_dropWhile, List.reverse_reverse]
  refine ⟨s.takeWhile isBlank, (rest.reverse.takeWhile isBlank).reverse, allBlank_takeWhile s, blank, ?_⟩
  rw [List.append_assoc, ← split, List.takeWhile_append_dropWhile]

theorem dropWhile_append_of_solid {core : List Char} (solid : ∀ c ∈ core, isBlank c = false) {rest : List Char}
    (blank : AllBlank rest) :
    (core ++ rest).dropWhile isBlank = if core = [] then [] else core ++ rest := by
  cases core with
  | nil => exact List.dropWhile_eq_nil_iff.2 blank
  | cons c more => simp [solid c List.mem_cons_self]

theorem trimChars_append {lead core tail : List Char} (hl : AllBlank lead) (ht : AllBlank tail)
    (solid : ∀ c ∈ core, isBlank c = false) : trimChars (lead ++ core ++ tail) = core := by
  have front : (lead ++ core ++ tail).dropWhile isBlank = if core = [] then [] else core ++ tail := by
    rw [List.append_assoc, List.dropWhile_append_of_pos hl, dropWhile_append_of_solid solid ht]
  rw [trimChars, front]
  split
  · rename_i none
    rw [none]
    rfl
  · have ht' : AllBlank tail.reverse := fun c hc => ht c (List.mem_reverse.1 hc)
    have solid' : ∀ c ∈ core.reverse, isBlank c = false := fun c hc => solid c (List.mem_reverse.1 hc)
    have back : (core.reverse ++ []).dropWhile isBlank = core.reverse := by
      rw [dropWhile_append_of_solid solid' (List.forall_mem_nil _), if_neg (by simpa), List.append_nil]
    rw [trimEndChars, List.reverse_append, List.dropWhile_append_of_pos ht', ← List.append_nil core.reverse, back,
      List.reverse_reverse]

theorem trimChars_eq_iff {core : List Char} (solid : ∀ c ∈ core, isBlank c = false) (s : List Char) :
    trimChars s = core ↔ ∃ lead tail, AllBlank lead ∧ AllBlank tail ∧ s = lead ++ core ++ tail := by
  constructor
  · rintro rfl
    exact exists_trimChars s
  · rintro ⟨lead, tail, hl, ht, rfl⟩
    exact trimChars_append hl ht solid

theorem splitFirst?_eq_some_iff {separator : Char} {s a b : List Char} :
    splitFirst? separator s = some (a, b) ↔ s = a ++ separator :: b ∧ separator ∉ a := by
  induction s generalizing a with
  | nil => simp [splitFirst?]
  | cons c rest ih =>
    constructor
    · intro found
      unfold splitFirst? at found
      split at found
      · rename_i e
        cases found
        exact ⟨congrArg (· :: b) e, List.not_mem_nil⟩
      · rename_i ne
        obtain ⟨⟨more, behind⟩, later, e⟩ := Option.map_eq_some_iff.1 found
        cases e
        obtain ⟨rfl, absent⟩ := ih.1 later
        exact ⟨rfl, List.not_mem_cons_of_ne_of_not_mem (Ne.symm ne) absent⟩
    · rintro ⟨e, absent⟩
      cases a with
      | nil =>
        obtain ⟨rfl, rfl⟩ := List.cons.inj e
        simp [splitFirst?]
      | cons first more =>
        obtain ⟨rfl, rfl⟩ := List.cons.inj e
        obtain ⟨ne, absent⟩ := List.ne_and_not_mem_of_not_mem_cons absent
        have later : splitFirst? separator (more ++ separator :: b) = some (more, b) := ih.2 ⟨rfl, absent⟩
        simp [splitFirst?, Ne.symm ne, later]

end BucketBench.Text
