import BucketBench.Proofs.Store.Summary

set_option autoImplicit false

namespace BucketBench.Collection

open Edit (Settled listing)

section Document

variable {filter d : Document} {edits : List Edit}

/-- A document that matches after the edits matched before them, for the others are left alone. -/
theorem matches_of_matches_edited (h : Document.matchesFilter filter (edited filter edits d) = true) :
    Document.matchesFilter filter d = true := by
  by_contra other
  rw [edited_of_not_matches (by simpa using other)] at h
  exact other h

theorem not_isTouched_of_settled (keyed : d.isWellKeyed = true) (hv : ∀ e ∈ edits, e.isWellKeyed = true)
    (apart : edits.Pairwise fun e f => Incomparable e.path f.path)
    (settled : Document.matchesFilter filter d = true → ∀ e ∈ edits, Settled d e) : isTouched filter edits d = false := by
  by_cases hm : Document.matchesFilter filter d = true
  · obtain ⟨after, h⟩ := Edit.applyAll_of_settled keyed hv apart (settled hm)
    simp [isTouched, h]
  · simp [isTouched, hm]

end Document

section Update

variable {filter update : Document} {c after : Collection} {summary : UpdateSummary}

/-- When every document that matches is as the edits want it, an update goes through and stores nothing. -/
theorem updateMany_of_settled (keyed : ∀ d ∈ c.documents, d.isWellKeyed = true) (updateKeyed : update.isWellKeyed = true)
    (acceptable : Edit.Acceptable update) (apart : (listing update).Pairwise fun e f => Incomparable e.path f.path)
    (settled : ∀ d ∈ c.documents, Document.matchesFilter filter d = true → ∀ e ∈ listing update, Settled d e) :
    (updateMany filter update).run c = (.ok ⟨c.count filter, 0⟩, c) := by
  have hv : ∀ e ∈ listing update, e.isWellKeyed = true := fun e he => Edit.isWellKeyed_of_mem_listing updateKeyed he
  have untouched : ∀ d ∈ c.documents, isTouched filter (listing update) d = false := fun d hd =>
    not_isTouched_of_settled (keyed d hd) hv apart (settled d hd)
  have goes : ∀ d ∈ c.documents, Document.matchesFilter filter d = true →
      ∃ r, Edit.applyAll (listing update) d = .ok r := by
    intro d hd hm
    obtain ⟨copy, taken⟩ := Edit.applyAll_of_settled (keyed d hd) hv apart (settled d hd hm)
    exact ⟨_, taken⟩
  obtain ⟨summary, after, run⟩ := updateMany_eq_ok_of_taken acceptable goes
  have counted : c.documents.countP (isTouched filter (listing update)) = 0 := by
    rw [List.countP_eq_zero]
    intro d hd
    simp [untouched d hd]
  have stored : c.documents.map (edited filter (listing update)) = c.documents :=
    calc
      c.documents.map (edited filter (listing update)) = c.documents.map id :=
        List.map_congr_left fun d hd => edited_of_not_touched (untouched d hd)
      _ = c.documents := List.map_id _
  obtain rfl := summary_of_updateMany run
  obtain ⟨-, -, rfl⟩ := of_updateMany_eq_ok run
  rw [run, counted, stored]

/-- Repeated at once, a successful update at incomparable paths matches no document that it did not match before, counts
none as modified and leaves every one of them exactly as it is. -/
theorem updateMany_again (keyed : ∀ d ∈ c.documents, d.isWellKeyed = true) (updateKeyed : update.isWellKeyed = true)
    (apart : (listing update).Pairwise fun e f => Incomparable e.path f.path)
    (h : (updateMany filter update).run c = (.ok summary, after)) :
    ∃ matched ≤ summary.matched, (updateMany filter update).run after = (.ok ⟨matched, 0⟩, after) := by
  have hv : ∀ e ∈ listing update, e.isWellKeyed = true := fun e he => Edit.isWellKeyed_of_mem_listing updateKeyed he
  obtain rfl := summary_of_updateMany h
  obtain ⟨acceptable, taken, rfl⟩ := of_updateMany_eq_ok h
  refine ⟨_, ?_, updateMany_of_settled ?_ updateKeyed acceptable apart ?_⟩
  · rw [count, count, find, find, ← List.countP_eq_length_filter, ← List.countP_eq_length_filter, List.countP_map]
    exact List.countP_mono_left fun d _ hm => matches_of_matches_edited hm
  · intro d' hd'
    obtain ⟨d, hd, rfl⟩ := List.mem_map.1 hd'
    exact isWellKeyed_edited (keyed d hd) hv
  · intro d' hd' hm
    obtain ⟨d, hd, rfl⟩ := List.mem_map.1 hd'
    have matched := matches_of_matches_edited hm
    exact settled_edited (keyed d hd) hv apart matched (taken d hd matched)

end Update

/-- One of two documents that match lacks what the update sets, and the way there: it counts once and no more. -/
theorem updateMany_again_labs :
    let labs : Collection :=
      ⟨[[("_id", .int 1), ("build", .string "531")], [("_id", .int 2), ("build", .string "532")],
        [("_id", .int 3), ("env", .object [("nodes", .int 6)]), ("build", .string "531")]], numbered⟩
    let update : Document := [("$set", .object [("env.nodes", .int 6)]), ("$unset", .object [("env.old", .null)])]
    ∃ after, (updateMany [("build", .string "531")] update).run labs = (.ok ⟨2, 1⟩, after) ∧
      ∃ matched ≤ 2, (updateMany [("build", .string "531")] update).run after = (.ok ⟨matched, 0⟩, after) := by
  intro labs update
  have keyed : ∀ d ∈ labs.documents, d.isWellKeyed = true := by decide
  have updateKeyed : update.isWellKeyed = true := by decide
  have apart : (listing update).Pairwise fun e f => Incomparable e.path f.path := by decide
  obtain ⟨after, run⟩ : ∃ after, (updateMany [("build", .string "531")] update).run labs = (.ok ⟨2, 1⟩, after) :=
    ⟨_, rfl⟩
  exact ⟨after, run, updateMany_again keyed updateKeyed apart run⟩

end BucketBench.Collection
