import BucketBench.Proofs.Store.Edit
import BucketBench.Proofs.Store.Outline

set_option autoImplicit false

namespace BucketBench

namespace Document

def Obstacle (place : List String) (d : Document) : Prop := ∃ v, d.at? place = some v ∧ v.isObject = false

variable {value : Value} {path place other : List String} {d after : Document}

theorem blocked_iff_obstacle : d.Blocked path ↔ ∃ lead, lead <+: path ∧ lead ≠ path ∧ d.Obstacle lead := by
  simp only [Blocked, Obstacle]
  exact ⟨fun ⟨lead, v, front, ne, found, hv⟩ => ⟨lead, front, ne, v, found, hv⟩,
    fun ⟨lead, front, ne, v, found, hv⟩ => ⟨lead, v, front, ne, found, hv⟩⟩

theorem not_obstacle_of_object {inner : Document} (h : d.at? place = some (.object inner)) : ¬ d.Obstacle place := by
  rintro ⟨v, found, hv⟩
  rw [h] at found
  exact absurd (isObject_of_some found) (by simp [hv])

/-- Writing puts and removes obstacles only inside the place that is written. -/
theorem obstacle_setAt_iff (outside : ¬ path <+: place) (h : setAt value path d = .ok after) :
    after.Obstacle place ↔ d.Obstacle place := by
  rcases inside_or_around_or_apart path place with ⟨rest, rfl⟩ | ⟨rest, more, rfl⟩ | apart
  · exact absurd (List.prefix_append path rest) outside
  · -- there is a document now, and an obstacle would have stopped the write
    refine iff_of_false ?_ ?_
    · rintro ⟨v, found, hv⟩
      obtain ⟨inner, hi⟩ := at?_setAt_above (ne_nil_of_at? found) more h
      exact not_obstacle_of_object hi ⟨v, found, hv⟩
    · intro obstacle
      have blocked : d.Blocked (place ++ rest) :=
        blocked_iff_obstacle.2 ⟨place, List.prefix_append place rest, by simpa using more.symm, obstacle⟩
      obtain ⟨part, fails⟩ := (setAt_fails_iff value _ d).2 blocked
      rw [h] at fails
      cases fails
  · rw [Obstacle, Obstacle, at?_setAt_of_apart apart h]

theorem obstacle_iff_outline : d.Obstacle place ↔ ∃ v, (d.at? place).map Value.outline = some v ∧ v.isObject = false := by
  simp [Obstacle]

theorem obstacle_unsetAt_iff (outside : ¬ path <+: place) (keyed : d.isWellKeyed = true) :
    (unsetAt path d).Obstacle place ↔ d.Obstacle place := by
  rw [obstacle_iff_outline, obstacle_iff_outline, outline_unsetAt outside keyed]

end Document

namespace Edit

structure Undisturbed (edit : Edit) (d after : Document) : Prop where
  fails_iff : (∃ fault, apply after edit = .error fault) ↔ ∃ fault, apply d edit = .error fault
  settled_iff : Settled after edit ↔ Settled d edit

section Apply

variable {d after : Document} {edit other : Edit} {changed : Bool}

theorem obstacle_apply_iff {place : List String} (outside : ¬ pathKeys edit.path <+: place) (keyed : d.isWellKeyed = true)
    (h : apply d edit = .ok (after, changed)) : after.Obstacle place ↔ d.Obstacle place := by
  cases edit with
  | set path value => exact Document.obstacle_setAt_iff outside (apply_set_eq_ok_iff.1 h).1
  | unset path =>
    obtain ⟨rfl, -⟩ := apply_unset_eq_ok_iff.1 h
    exact Document.obstacle_unsetAt_iff outside keyed

theorem blocked_apply_iff {path : String} (apart : Incomparable edit.path path) (keyed : d.isWellKeyed = true)
    (h : apply d edit = .ok (after, changed)) : after.Blocked (pathKeys path) ↔ d.Blocked (pathKeys path) := by
  rw [Document.blocked_iff_obstacle, Document.blocked_iff_obstacle]
  refine exists_congr fun lead => and_congr_right fun front => and_congr_right fun _ => ?_
  have outside : ¬ pathKeys edit.path <+: lead := fun inside =>
    ((incomparable_iff edit.path path).1 apart).1 (inside.trans front)
  exact obstacle_apply_iff outside keyed h

theorem undisturbed_apply (apart : Incomparable edit.path other.path) (keyed : d.isWellKeyed = true)
    (h : apply d edit = .ok (after, changed)) : Undisturbed other d after where
  fails_iff := by
    rw [apply_fails_iff, apply_fails_iff]
    refine exists_congr fun path => exists_congr fun value => and_congr_right fun e => ?_
    subst e
    exact blocked_apply_iff apart keyed h
  settled_iff := by
    have kept := at?_apply_of_apart keyed ((incomparable_iff edit.path other.path).1 apart) h
    exact ⟨settled_of_at?_eq kept, settled_of_at?_eq kept.symm⟩

theorem ok_of_settled (settled : Settled d edit) : ∃ r, apply d edit = .ok r := by
  rcases ok_or_fails (apply d edit) with taken | fails
  · exact taken
  · -- the value that is in the way would have to be a document, for there is a value below it
    obtain ⟨path, value, rfl, blocked⟩ := (apply_fails_iff d edit).1 fails
    obtain ⟨v, there, -⟩ := settled
    obtain ⟨lead, ⟨rest, e⟩, ne, w, found, hw⟩ := Document.blocked_iff_obstacle.1 blocked
    have more : rest ≠ [] := by
      rintro rfl
      exact ne (by simpa using e)
    rw [← e] at there
    obtain ⟨inner, hi⟩ := Document.exists_object_above (Document.ne_nil_of_at? found) more there
    exact absurd ⟨w, found, hw⟩ (Document.not_obstacle_of_object hi)

end Apply

section Run

variable {edits : List Edit} {d after : Document} {changed : Bool}

/-- A run of independent edits fails exactly when one of them fails alone. -/
theorem applyAll_fails_iff_of_incomparable (keyed : d.isWellKeyed = true) (hv : ∀ e ∈ edits, e.isWellKeyed = true)
    (apart : edits.Pairwise fun e f => Incomparable e.path f.path) :
    (∃ fault, applyAll edits d = .error fault) ↔ ∃ e ∈ edits, ∃ fault, apply d e = .error fault := by
  induction edits generalizing d with
  | nil => simp [applyAll]
  | cons edit rest ih =>
    rw [List.forall_mem_cons] at hv
    obtain ⟨away, apart⟩ := List.pairwise_cons.1 apart
    rw [applyAll_cons_fails_iff, List.exists_mem_cons_iff]
    refine or_congr_right' fun taken => ?_
    obtain ⟨⟨middle, first⟩, h⟩ := (ok_or_fails (apply d edit)).resolve_right taken
    have later : (∃ fault, applyAll rest middle = .error fault) ↔ ∃ e ∈ rest, ∃ fault, apply middle e = .error fault :=
      ih (isWellKeyed_apply keyed hv.1 h) hv.2 apart
    have same : (∃ e ∈ rest, ∃ fault, apply middle e = .error fault) ↔ ∃ e ∈ rest, ∃ fault, apply d e = .error fault :=
      exists_congr fun e => and_congr_right fun he => (undisturbed_apply (away e he) keyed h).fails_iff
    rw [← same, ← later]
    constructor
    · rintro ⟨middle', first', h', fails⟩
      cases h.symm.trans h'
      exact fails
    · exact fun fails => ⟨middle, first, h, fails⟩

/-- A run of independent edits reports a change exactly when one of them finds the document other than it wants it. -/
theorem changed_iff_of_incomparable (keyed : d.isWellKeyed = true) (hv : ∀ e ∈ edits, e.isWellKeyed = true)
    (apart : edits.Pairwise fun e f => Incomparable e.path f.path) (h : applyAll edits d = .ok (after, changed)) :
    changed = true ↔ ∃ e ∈ edits, ¬ Settled d e := by
  induction edits generalizing d changed with
  | nil =>
    cases h
    simp
  | cons edit rest ih =>
    rw [List.forall_mem_cons] at hv
    obtain ⟨away, apart⟩ := List.pairwise_cons.1 apart
    obtain ⟨middle, first, more, hf, hm, rfl⟩ := applyAll_cons_eq_ok_iff.1 h
    have later : more = true ↔ ∃ e ∈ rest, ¬ Settled middle e := ih (isWellKeyed_apply keyed hv.1 hf) hv.2 apart hm
    have same : (∃ e ∈ rest, ¬ Settled middle e) ↔ ∃ e ∈ rest, ¬ Settled d e :=
      exists_congr fun e => and_congr_right fun he => not_congr (undisturbed_apply (away e he) keyed hf).settled_iff
    rw [Bool.or_eq_true, changed_iff_of_apply hf, later, same, List.exists_mem_cons_iff]

/-- Independent edits that are settled go through and have nothing to do. -/
theorem applyAll_of_settled (keyed : d.isWellKeyed = true) (hv : ∀ e ∈ edits, e.isWellKeyed = true)
    (apart : edits.Pairwise fun e f => Incomparable e.path f.path) (settled : ∀ e ∈ edits, Settled d e) :
    ∃ after, applyAll edits d = .ok (after, false) := by
  rcases ok_or_fails (applyAll edits d) with ⟨⟨after, changed⟩, h⟩ | fails
  · have unchanged : ¬ changed = true := by
      rw [changed_iff_of_incomparable keyed hv apart h]
      rintro ⟨e, he, unsettled⟩
      exact unsettled (settled e he)
    rw [Bool.not_eq_true] at unchanged
    exact ⟨after, unchanged ▸ h⟩
  · obtain ⟨e, he, fault, fails⟩ := (applyAll_fails_iff_of_incomparable keyed hv apart).1 fails
    obtain ⟨r, taken⟩ := ok_of_settled (settled e he)
    rw [taken] at fails
    cases fails

end Run

end Edit

end BucketBench
