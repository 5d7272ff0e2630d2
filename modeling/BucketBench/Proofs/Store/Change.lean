import BucketBench.Proofs.Store.Edit
import BucketBench.Proofs.Store.Outline

set_option autoImplicit false

namespace BucketBench

namespace Document

/-- The member at a path is gone from its parent, where the others may have changed places. Around that parent everything
is as it was. -/
inductive TakenOut : (path : List String) → (before after : Document) → Prop where
  | here {key : String} {v : Value} {front back after : Document} (others : after.Perm (front ++ back)) :
      TakenOut [key] (front ++ (key, v) :: back) after
  | inside {key : String} {path : List String} {inner inner' front back : Document} (below : TakenOut path inner inner') :
      TakenOut (key :: path) (front ++ (key, .object inner) :: back) (front ++ (key, .object inner') :: back)

/-- The first member under a key: it can be replaced in its place, and be removed. -/
theorem exists_split_of_get? {key : String} {v : Value} {d : Document} (found : d.get? key = some v) :
    ∃ front back, d = front ++ (key, v) :: back ∧ (∀ w, d.insert key w = front ++ (key, w) :: back) ∧
      (d.remove key).Perm (front ++ back) := by
  induction d with
  | nil => cases found
  | cons m rest ih =>
    obtain ⟨k, u⟩ := m
    rw [get?_cons] at found
    by_cases same : k = key
    · subst same
      cases (if_pos rfl).symm.trans found
      refine ⟨[], rest, rfl, fun w => by simp [insert], ?_⟩
      simpa [remove] using lastFirst_perm rest
    · rw [if_neg same] at found
      obtain ⟨front, back, rfl, replaced, removed⟩ := ih found
      refine ⟨(k, u) :: front, back, rfl, fun w => ?_, ?_⟩
      · rw [insert, if_neg same, replaced w, List.cons_append]
      · rw [remove, if_neg same]
        exact removed.cons (k, u)

theorem takenOut_unsetAt {path : List String} {d : Document} {v : Value} (found : d.at? path = some v) :
    TakenOut path d (unsetAt path d) := by
  induction path generalizing d with
  | nil => cases found
  | cons key rest ih =>
    cases rest with
    | nil =>
      obtain ⟨front, back, split, -, removed⟩ := exists_split_of_get? found
      rw [unsetAt]
      generalize remove key d = after at removed
      rw [split]
      exact .here removed
    | cons next tail =>
      rw [at?_cons] at found
      split at found
      · rename_i inner there
        obtain ⟨front, back, split, replaced, -⟩ := exists_split_of_get? there
        rw [unsetAt_cons, there]
        simp only [replaced]
        rw [split]
        exact .inside (ih found)
      · cases found

theorem not_same_of_removed {path : List String} {d : Document} {v : Value} (keyed : d.isWellKeyed = true)
    (found : d.at? path = some v) : (Value.object d).same (.object (unsetAt path d)) = false := by
  rw [Bool.eq_false_iff]
  intro same
  have agree : Agree (d.at? path) ((unsetAt path d).at? path) :=
    agree_at?_of_same keyed (isWellKeyed_unsetAt path keyed) same
  have gone := agree.none_iff.2 (at?_unsetAt_self path keyed)
  rw [found] at gone
  cases gone

/-- Setting reports a change exactly when the document differs afterwards. -/
theorem setPath_differs_iff {d after : Document} {path : String} {value : Value} {changed : Bool}
    (keyed : d.isWellKeyed = true) (hv : value.isWellKeyed = true) (h : d.setPath path value = .ok (after, changed)) :
    changed = true ↔ (Value.object d).same (.object after) = false := by
  have applied : Edit.apply d (.set path value) = .ok (after, changed) := h
  have hv : (Edit.set path value).isWellKeyed = true := hv
  constructor
  · intro report
    rw [Bool.eq_false_iff]
    intro same
    have keyed' := Edit.isWellKeyed_apply keyed hv applied
    have settled := Edit.settled_of_same keyed keyed' hv same (Edit.settled_apply keyed hv applied)
    exact (Edit.changed_iff_of_apply applied).1 report settled
  · intro differs
    cases changed with
    | true => rfl
    | false =>
      rw [Edit.same_apply_of_unchanged keyed applied] at differs
      cases differs

theorem setPath_unchanged_iff {d after : Document} {path : String} {value : Value} {changed : Bool}
    (h : d.setPath path value = .ok (after, changed)) :
    changed = false ↔ ∃ old, d.at? (pathKeys path) = some old ∧ old.same value = true := by
  have applied : Edit.apply d (.set path value) = .ok (after, changed) := h
  rw [← Bool.not_eq_true, Edit.changed_iff_of_apply applied, not_not, Edit.Settled]

theorem setPath_fails_iff (d : Document) (path : String) (value : Value) :
    (∃ fault, d.setPath path value = .error fault) ↔
      ∃ lead v, DottedPrefix lead path ∧ d.at? (pathKeys lead) = some v ∧ v.isObject = false := by
  rw [← Edit.blocked_iff]
  constructor
  · intro fails
    obtain ⟨_, _, same, blocked⟩ := (Edit.apply_fails_iff d (.set path value)).1 fails
    cases same
    exact blocked
  · intro blocked
    exact (Edit.apply_fails_iff d (.set path value)).2 ⟨path, value, rfl, blocked⟩

/-- Setting fails exactly below a value that is no document. When it succeeds, it reports a change exactly if the document
differs afterwards, that is, unless looking up the path gave an equal value before. Removing reports whether looking up the
path gave a value. Then this member is gone and nothing else; otherwise the document is the same, and in no case does a
document on the way come or go. -/
theorem changes_reported {d : Document} {value : Value} (keyed : d.isWellKeyed = true) (hv : value.isWellKeyed = true)
    (path : String) :
    ((∃ fault, d.setPath path value = .error fault) ↔
        ∃ lead v, DottedPrefix lead path ∧ d.at? (pathKeys lead) = some v ∧ v.isObject = false) ∧
      (∀ after changed, d.setPath path value = .ok (after, changed) →
        (changed = true ↔ (Value.object d).same (.object after) = false) ∧
          (changed = false ↔ ∃ old, d.at? (pathKeys path) = some old ∧ old.same value = true)) ∧
      ∀ after removed, d.unsetPath path = (after, removed) →
        (removed = true ↔ ∃ old, d.at? (pathKeys path) = some old) ∧
          (removed = true → TakenOut (pathKeys path) d after ∧ (Value.object d).same (.object after) = false) ∧
          (removed = false → after = d) ∧
          ∀ place, ¬ pathKeys path <+: place →
            (after.at? place).map Value.outline = (d.at? place).map Value.outline := by
  refine ⟨setPath_fails_iff d path value, fun after changed h => ?_, fun after removed h => ?_⟩
  · exact ⟨setPath_differs_iff keyed hv h, setPath_unchanged_iff h⟩
  · rw [unsetPath_eq] at h
    cases h
    refine ⟨Option.isSome_iff_exists, fun there => ?_, fun absent => ?_, fun place outside => outline_unsetAt outside keyed⟩
    · obtain ⟨v, found⟩ := Option.isSome_iff_exists.1 there
      exact ⟨takenOut_unsetAt found, not_same_of_removed keyed found⟩
    · rw [Option.isSome_eq_false_iff, Option.isNone_iff_eq_none] at absent
      exact unsetAt_of_absent absent

/-- A path that ends in a dot: its last key is empty. Zero stands there already, whatever its sign, and removing it leaves
an empty parent behind. -/
theorem changes_reported_empty_key :
    let d : Document := [("a", .object [("", .double (.zero true))]), ("b", .int 1)]
    d.isWellKeyed = true ∧ (∃ after, d.setPath "a." (.double (.zero false)) = .ok (after, false)) ∧
      ∃ after, d.unsetPath "a." = (after, true) ∧ TakenOut (pathKeys "a.") d after ∧
        (after.at? ["a"]).map Value.outline = some (.object []) := by
  intro d
  have keyed : d.isWellKeyed = true := by decide
  have scalar : (Value.double (.zero false)).isWellKeyed = true := rfl
  obtain ⟨-, -, removing⟩ := changes_reported keyed scalar "a."
  have same : d.setPath "a." (.double (.zero false)) = .ok (_, false) := rfl
  refine ⟨keyed, ⟨_, same⟩, _, rfl, ?_⟩
  obtain ⟨-, gone, -, around⟩ := removing _ true rfl
  exact ⟨(gone rfl).1, around ["a"] (by decide)⟩

end Document

end BucketBench
