import BucketBench.Json.Value
import Mathlib.Data.List.Nodup

set_option autoImplicit false

namespace BucketBench

mutual

/-- Whether no object in a value has a key twice. -/
def Value.isWellKeyed : Value → Bool
  | .array items => Value.areWellKeyed items
  | .object members => decide (members.map (·.1)).Nodup && Document.holdsWellKeyed members
  | _ => true

def Value.areWellKeyed : List Value → Bool
  | [] => true
  | v :: rest => v.isWellKeyed && Value.areWellKeyed rest

def Document.holdsWellKeyed : Document → Bool
  | [] => true
  | (_, v) :: rest => v.isWellKeyed && Document.holdsWellKeyed rest

end

namespace Document

def isWellKeyed (d : Document) : Bool := (Value.object d).isWellKeyed

theorem holdsWellKeyed_iff (d : Document) : d.holdsWellKeyed = true ↔ ∀ m ∈ d, m.2.isWellKeyed = true := by
  induction d with
  | nil => simp [holdsWellKeyed]
  | cons m rest ih =>
    obtain ⟨k, v⟩ := m
    simp only [holdsWellKeyed, Bool.and_eq_true, ih, List.mem_cons, forall_eq_or_imp]

theorem isWellKeyed_iff (d : Document) :
    d.isWellKeyed = true ↔ d.keys.Nodup ∧ ∀ m ∈ d, m.2.isWellKeyed = true := by
  simp only [isWellKeyed, Value.isWellKeyed, Bool.and_eq_true, decide_eq_true_eq, holdsWellKeyed_iff, keys]

theorem nodup_keys {d : Document} (h : d.isWellKeyed = true) : d.keys.Nodup := ((isWellKeyed_iff d).1 h).1

end Document

namespace Value

theorem areWellKeyed_iff (items : List Value) : areWellKeyed items = true ↔ ∀ v ∈ items, v.isWellKeyed = true := by
  induction items with
  | nil => simp [areWellKeyed]
  | cons v rest ih => simp only [areWellKeyed, Bool.and_eq_true, ih, List.mem_cons, forall_eq_or_imp]

end Value

/-! ## Members of a document -/

namespace Document

theorem mem_of_get? {key : String} {v : Value} {d : Document} (h : d.get? key = some v) : (key, v) ∈ d := by
  induction d with
  | nil => simp at h
  | cons m rest ih =>
    rw [get?_cons] at h
    split at h
    · rename_i e
      cases h
      subst e
      exact List.mem_cons_self
    · exact List.mem_cons_of_mem _ (ih h)

theorem mem_keys_of_mem {m : String × Value} {d : Document} (h : m ∈ d) : m.1 ∈ d.keys := List.mem_map_of_mem h

theorem get?_of_mem {key : String} {v : Value} {d : Document} (nodup : d.keys.Nodup) (h : (key, v) ∈ d) :
    d.get? key = some v := by
  induction d with
  | nil => simp at h
  | cons m rest ih =>
    have split : m.1 ∉ keys rest ∧ (keys rest).Nodup := List.nodup_cons.1 nodup
    rw [get?_cons]
    rcases List.mem_cons.1 h with e | h
    · subst e
      simp
    · have ne : m.1 ≠ key := fun e => split.1 (e ▸ mem_keys_of_mem h)
      rw [if_neg ne]
      exact ih split.2 h

theorem get?_eq_some_iff {d : Document} (nodup : d.keys.Nodup) (key : String) (v : Value) :
    d.get? key = some v ↔ (key, v) ∈ d :=
  ⟨mem_of_get?, get?_of_mem nodup⟩

theorem keys_perm {d e : Document} (h : d.Perm e) : d.keys.Perm e.keys := h.map _

theorem get?_of_perm {d e : Document} (nodup : d.keys.Nodup) (h : d.Perm e) (key : String) :
    d.get? key = e.get? key := by
  have nodup' : e.keys.Nodup := (keys_perm h).nodup_iff.1 nodup
  apply Option.ext
  intro v
  rw [get?_eq_some_iff nodup, get?_eq_some_iff nodup']
  exact h.mem_iff

theorem lastFirst_perm (d : Document) : (lastFirst d).Perm d := by
  unfold lastFirst
  cases h : d.getLast? with
  | none => simp [List.getLast?_eq_none_iff.1 h]
  | some m =>
    obtain ⟨front, rfl⟩ := List.getLast?_eq_some_iff.1 h
    rw [List.dropLast_concat]
    exact (List.perm_append_singleton m front).symm

/-- Up to the order, removing a key drops its first member. -/
theorem remove_perm (key : String) (d : Document) : (d.remove key).Perm (d.eraseP fun m => m.1 = key) := by
  induction d with
  | nil => exact List.Perm.refl _
  | cons m rest ih =>
    obtain ⟨k, v⟩ := m
    by_cases h : k = key
    · simpa [remove, h] using lastFirst_perm rest
    · simpa [remove, h] using ih

/-- Of a document without repeated keys, removing one leaves the members under the others. -/
theorem remove_perm_filter (key : String) {d : Document} (nodup : d.keys.Nodup) :
    (d.remove key).Perm (d.filter (·.1 ≠ key)) := by
  refine (remove_perm key d).trans (List.Perm.of_eq ?_)
  induction d with
  | nil => rfl
  | cons m rest ih =>
    obtain ⟨absent, later⟩ : m.1 ∉ keys rest ∧ (keys rest).Nodup := List.nodup_cons.1 nodup
    by_cases same : m.1 = key
    · subst same
      have others : rest.filter (·.1 ≠ m.1) = rest := by
        refine List.filter_eq_self.2 fun other mem => decide_eq_true fun same => ?_
        exact absent (same ▸ mem_keys_of_mem mem)
      simpa using others.symm
    · simpa [same] using ih later

theorem remove_of_absent {key : String} {d : Document} (h : d.get? key = none) : d.remove key = d := by
  induction d with
  | nil => rfl
  | cons m rest ih =>
    obtain ⟨k, v⟩ := m
    rw [get?_cons] at h
    split at h
    · simp at h
    · rename_i ne
      simp [remove, ne, ih h]

theorem mem_of_mem_remove {key : String} {m : String × Value} {d : Document} (h : m ∈ d.remove key) : m ∈ d :=
  List.mem_of_mem_eraseP ((remove_perm key d).mem_iff.1 h)

theorem nodup_keys_remove (key : String) {d : Document} (nodup : d.keys.Nodup) : (d.remove key).keys.Nodup := by
  have fewer : (keys (d.eraseP fun m => m.1 = key)).Sublist d.keys := List.eraseP_sublist.map _
  exact (keys_perm (remove_perm key d)).nodup_iff.2 (fewer.nodup nodup)

theorem get?_eraseP (key other : String) {d : Document} (nodup : d.keys.Nodup) :
    get? other (d.eraseP fun m => m.1 = key) = if key = other then none else d.get? other := by
  induction d with
  | nil => simp
  | cons m rest ih =>
    have split : m.1 ∉ keys rest ∧ (keys rest).Nodup := List.nodup_cons.1 nodup
    by_cases h : m.1 = key
    · subst h
      have gone : get? m.1 rest = none := (get?_eq_none_iff _ _).2 split.1
      by_cases e : m.1 = other
      · subst e
        simpa using gone
      · simp [get?_cons, e]
    · by_cases e : key = other
      · subst e
        simpa [get?_cons, h] using ih split.2
      · simp [get?_cons, h, e, ih split.2]

theorem get?_remove (key other : String) {d : Document} (nodup : d.keys.Nodup) :
    (d.remove key).get? other = if key = other then none else d.get? other := by
  rw [get?_of_perm (nodup_keys_remove key nodup) (remove_perm key d), get?_eraseP key other nodup]

theorem mem_insert {key : String} {value : Value} {m : String × Value} {d : Document} (h : m ∈ d.insert key value) :
    m = (key, value) ∨ m ∈ d := by
  induction d with
  | nil => simpa [insert] using h
  | cons first rest ih =>
    obtain ⟨k, v⟩ := first
    by_cases e : k = key
    · subst e
      rcases List.mem_cons.1 (by simpa [insert] using h) with h | h
      · exact Or.inl h
      · exact Or.inr (List.mem_cons_of_mem _ h)
    · rcases List.mem_cons.1 (by simpa [insert, e] using h) with h | h
      · exact Or.inr (h ▸ List.mem_cons_self)
      · exact (ih h).imp_right (List.mem_cons_of_mem _)

theorem insert_of_get? {key : String} {v : Value} {d : Document} (h : d.get? key = some v) : d.insert key v = d := by
  induction d with
  | nil => simp at h
  | cons m rest ih =>
    obtain ⟨k, w⟩ := m
    rw [get?_cons] at h
    by_cases e : k = key
    · simp only [e, if_true, Option.some.injEq] at h
      simp [insert, e, h]
    · simp only [e, if_false] at h
      simp [insert, e, ih h]

theorem nodup_keys_insert (key : String) (value : Value) {d : Document} (nodup : d.keys.Nodup) :
    (d.insert key value).keys.Nodup := by
  by_cases h : key ∈ d.keys
  · rw [keys_insert_of_mem value h]
    exact nodup
  · rw [insert_of_not_mem value h, keys, List.map_append]
    exact List.nodup_append_comm.1 (List.nodup_cons.2 ⟨h, nodup⟩)

/-! ## Overlays -/

theorem get?_append (key : String) (d e : Document) : get? key (d ++ e) = (d.get? key).or (e.get? key) := by
  induction d with
  | nil => rfl
  | cons m rest ih =>
    rw [List.cons_append, get?_cons, get?_cons]
    split
    · rfl
    · exact ih

theorem overlay_cons (base : Document) (m : String × Value) (rest : Document) :
    overlay base (m :: rest) = overlay (base.insert m.1 m.2) rest := rfl

/-- The last member that was written under a key is found there. -/
theorem get?_overlay (base top : Document) (key : String) :
    (overlay base top).get? key = (get? key top.reverse).or (base.get? key) := by
  induction top generalizing base with
  | nil => rfl
  | cons m rest ih =>
    rw [overlay_cons, ih, get?_insert, List.reverse_cons, get?_append, get?_cons, Option.or_assoc]
    by_cases h : m.1 = key
    · simp [h]
    · simp [h]

theorem get?_overlay_of_nodup {top : Document} (nodup : top.keys.Nodup) (base : Document) (key : String) :
    (overlay base top).get? key = (top.get? key).or (base.get? key) := by
  rw [get?_overlay, ← get?_of_perm nodup top.reverse_perm.symm]

theorem get?_overlay_of_last {front back : Document} {key : String} {v : Value} (last : key ∉ back.keys)
    (base : Document) : (overlay base (front ++ (key, v) :: back)).get? key = some v := by
  have absent : get? key back.reverse = none := (get?_eq_none_iff _ _).2 (by simpa [keys] using last)
  rw [get?_overlay, List.reverse_append, List.reverse_cons, List.append_assoc, get?_append, absent, List.singleton_append,
    get?_cons]
  simp

theorem mem_keys_overlay (base top : Document) (key : String) :
    key ∈ (overlay base top).keys ↔ key ∈ base.keys ∨ key ∈ top.keys := by
  have absent : key ∉ (overlay base top).keys ↔ key ∉ top.keys ∧ key ∉ base.keys := by
    have reversed : key ∉ keys top.reverse ↔ key ∉ top.keys := by simp [keys]
    rw [← get?_eq_none_iff, get?_overlay, Option.or_eq_none_iff, get?_eq_none_iff, get?_eq_none_iff, reversed]
  rw [← not_iff_not, absent, not_or, and_comm]

/-- An overlay keeps the places of the base, and what is new comes behind them in its own order. -/
theorem keys_overlay {top : Document} (nodup : top.keys.Nodup) (base : Document) :
    (overlay base top).keys = base.keys ++ top.keys.filter (· ∉ base.keys) := by
  induction top generalizing base with
  | nil => exact (List.append_nil _).symm
  | cons m rest ih =>
    have split : m.1 ∉ keys rest ∧ (keys rest).Nodup := List.nodup_cons.1 nodup
    have front : keys (m :: rest) = m.1 :: keys rest := rfl
    rw [overlay_cons, ih split.2, front]
    by_cases h : m.1 ∈ base.keys
    · rw [keys_insert_of_mem m.2 h]
      simp [h]
    · have longer : (base.insert m.1 m.2).keys = base.keys ++ [m.1] := by simp [insert_of_not_mem m.2 h, keys]
      have others : (keys rest).filter (· ∉ base.keys ++ [m.1]) = (keys rest).filter (· ∉ base.keys) := by
        refine List.filter_congr fun k hk => ?_
        have ne : k ≠ m.1 := fun e => split.1 (e ▸ hk)
        simp [ne]
      rw [longer, others]
      simp [h]

theorem overlay_of_nodup {base top : Document} (nodup : (base ++ top).keys.Nodup) : overlay base top = base ++ top := by
  induction top generalizing base with
  | nil => exact (List.append_nil _).symm
  | cons m rest ih =>
    have split : base ++ m :: rest = (base ++ [m]) ++ rest := by simp
    rw [split] at nodup ⊢
    have front : (keys base ++ [m.1]).Nodup := by
      have both : (keys (base ++ [m]) ++ keys rest).Nodup := by simpa [keys] using nodup
      simpa [keys] using (List.nodup_append.1 both).1
    have fresh : m.1 ∉ base.keys := (List.nodup_cons.1 (List.nodup_append_comm.1 front)).1
    rw [overlay_cons, insert_of_not_mem m.2 fresh, ih nodup]

/-! ## Well keyed documents -/

theorem isWellKeyed_of_get? {key : String} {v : Value} {d : Document} (keyed : d.isWellKeyed = true)
    (h : d.get? key = some v) : v.isWellKeyed = true :=
  ((isWellKeyed_iff d).1 keyed).2 _ (mem_of_get? h)

theorem isWellKeyed_insert (key : String) {value : Value} {d : Document} (keyed : d.isWellKeyed = true)
    (h : value.isWellKeyed = true) : (d.insert key value).isWellKeyed = true := by
  obtain ⟨nodup, values⟩ := (isWellKeyed_iff d).1 keyed
  refine (isWellKeyed_iff _).2 ⟨nodup_keys_insert key value nodup, ?_⟩
  intro m hm
  rcases mem_insert hm with rfl | hm
  · exact h
  · exact values m hm

theorem isWellKeyed_remove (key : String) {d : Document} (keyed : d.isWellKeyed = true) :
    (d.remove key).isWellKeyed = true := by
  obtain ⟨nodup, values⟩ := (isWellKeyed_iff d).1 keyed
  exact (isWellKeyed_iff _).2 ⟨nodup_keys_remove key nodup, fun m hm => values m (mem_of_mem_remove hm)⟩

end Document

end BucketBench
