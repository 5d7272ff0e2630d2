import BucketBench.Proofs.Store.Independent
import BucketBench.Proofs.Store.Update

set_option autoImplicit false

namespace BucketBench

namespace Edit

variable {edits : List Edit} {d after : Document} {changed : Bool}

/-- One of the edits finds the copy, as edited so far, other than it wants it. -/
def HaveEffect (edits : List Edit) (d : Document) : Prop :=
  ∃ before edit rest, edits = before ++ edit :: rest ∧
    ∃ copy changed, applyAll before d = .ok (copy, changed) ∧ ¬ Settled copy edit

theorem haveEffect_cons_iff {edit : Edit} {rest : List Edit} {middle : Document}
    (h : apply d edit = .ok (middle, changed)) :
    HaveEffect (edit :: rest) d ↔ ¬ Settled d edit ∨ HaveEffect rest middle := by
  constructor
  · rintro ⟨before, other, more, e, copy, flag, hc, unsettled⟩
    cases before with
    | nil =>
      cases e
      cases hc
      exact .inl unsettled
    | cons first before =>
      cases e
      obtain ⟨middle', first', later, hf, hm, -⟩ := applyAll_cons_eq_ok_iff.1 hc
      cases h.symm.trans hf
      exact .inr ⟨before, other, more, rfl, copy, later, hm, unsettled⟩
  · rintro (unsettled | ⟨before, other, more, rfl, copy, later, hm, unsettled⟩)
    · exact ⟨[], edit, rest, rfl, d, false, rfl, unsettled⟩
    · exact ⟨edit :: before, other, more, rfl, copy, _, applyAll_cons_eq_ok_iff.2 ⟨_, _, _, h, hm, rfl⟩, unsettled⟩

theorem changed_iff_of_applyAll (h : applyAll edits d = .ok (after, changed)) :
    changed = true ↔ HaveEffect edits d := by
  induction edits generalizing d changed with
  | nil =>
    cases h
    refine iff_of_false Bool.false_ne_true ?_
    rintro ⟨before, edit, rest, e, -⟩
    simp at e
  | cons edit rest ih =>
    obtain ⟨middle, first, more, hf, hm, rfl⟩ := applyAll_cons_eq_ok_iff.1 h
    rw [haveEffect_cons_iff hf, ← changed_iff_of_apply hf, ← ih hm, Bool.or_eq_true]

/-- The edits have an effect, and all the same the document is in the end as it was. -/
def CancelOut (edits : List Edit) (d : Document) : Prop :=
  HaveEffect edits d ∧
    ∃ after changed, applyAll edits d = .ok (after, changed) ∧ (Value.object d).same (.object after) = true

theorem not_cancelOut_of_incomparable (keyed : d.isWellKeyed = true) (hv : ∀ e ∈ edits, e.isWellKeyed = true)
    (apart : edits.Pairwise fun e f => Incomparable e.path f.path) : ¬ CancelOut edits d := by
  rintro ⟨effect, after, changed, h, same⟩
  obtain ⟨e, he, unsettled⟩ := (changed_iff_of_incomparable keyed hv apart h).1 ((changed_iff_of_applyAll h).2 effect)
  have settled : Settled after e := settled_applyAll keyed hv apart h e he
  exact unsettled (settled_of_same keyed (isWellKeyed_applyAll keyed hv h) (hv e he) same settled)

end Edit

namespace Collection

open Edit (listing CancelOut HaveEffect)

def changes (before after : List Document) : Nat :=
  (before.zip after).countP fun p => !(Value.object p.1).same (.object p.2)

theorem changes_map (f : Document → Document) (documents : List Document) :
    changes documents (documents.map f) = documents.countP fun d => !(Value.object d).same (.object (f d)) := by
  induction documents with
  | nil => rfl
  | cons d rest ih =>
    rw [changes] at ih ⊢
    rw [List.map_cons, List.zip_cons_cons, List.countP_cons, List.countP_cons, ih]

def isTouched (filter : Document) (edits : List Edit) (d : Document) : Bool :=
  Document.matchesFilter filter d &&
    match Edit.applyAll edits d with
    | .ok (_, changed) => changed
    | .error _ => false

theorem summary_of_prepare {filter : Document} {edits : List Edit} {documents : List Document} {place : Nat}
    {summary : UpdateSummary} {copies : List (Nat × Document)}
    (h : prepare filter edits place documents = .ok (summary, copies)) :
    summary = ⟨documents.countP (Document.matchesFilter filter), documents.countP (isTouched filter edits)⟩ := by
  induction documents generalizing place summary copies with
  | nil =>
    cases h
    rfl
  | cons d rest ih =>
    rw [List.countP_cons, List.countP_cons]
    by_cases hm : Document.matchesFilter filter d = true
    · simp only [prepare, hm, if_true] at h
      obtain ⟨⟨after, changed⟩, ha, h⟩ := bind_eq_ok_iff.1 h
      obtain ⟨⟨counts, more⟩, hr, h⟩ := bind_eq_ok_iff.1 h
      rw [ih hr] at h
      cases changed <;> cases h <;> simp [isTouched, hm, ha]
    · simp only [prepare, hm, Bool.false_eq_true, if_false] at h
      rw [ih h]
      simp [isTouched, hm]

section Exact

variable {filter update : Document} {c after : Collection} {summary : UpdateSummary}

theorem summary_of_updateMany (h : (updateMany filter update).run c = (.ok summary, after)) :
    summary = ⟨c.count filter, c.documents.countP (isTouched filter (listing update))⟩ := by
  rw [run_updateMany] at h
  split at h
  · cases h
  · rename_i edits he
    obtain ⟨-, rfl⟩ := (Edit.ofUpdate_eq_ok_iff update edits).1 he
    split at h
    · cases h
    · rename_i counts copies hp
      cases h
      rw [summary_of_prepare hp, count, find, List.countP_eq_length_filter (p := Document.matchesFilter filter)]

theorem edited_of_not_touched {edits : List Edit} {d : Document} (h : isTouched filter edits d = false) :
    edited filter edits d = d := by
  unfold edited
  split
  · rename_i hm
    split
    · rename_i e
      simp [isTouched, hm, e] at h
    · rfl
  · rfl

theorem touched_and_same_iff {edits : List Edit} {d : Document} (hm : Document.matchesFilter filter d = true)
    (taken : ∃ r, Edit.applyAll edits d = .ok r) :
    isTouched filter edits d = true ∧ (Value.object d).same (.object (edited filter edits d)) = true ↔
      CancelOut edits d := by
  obtain ⟨⟨copy, changed⟩, h⟩ := taken
  have touched : isTouched filter edits d = changed := by simp [isTouched, hm, h]
  have effect := Edit.changed_iff_of_applyAll h
  rw [touched]
  constructor
  · rintro ⟨rfl, same⟩
    have stored : edited filter edits d = copy := by simp [edited, hm, h]
    exact ⟨effect.1 rfl, copy, true, h, stored ▸ same⟩
  · rintro ⟨have_, copy', changed', h', same⟩
    cases h.symm.trans h'
    obtain rfl := effect.2 have_
    have stored : edited filter edits d = copy := by simp [edited, hm, h]
    exact ⟨rfl, stored.symm ▸ same⟩

theorem countP_eq_iff_of_imp {α : Type} {p q : α → Bool} {items : List α}
    (h : ∀ a ∈ items, p a = true → q a = true) :
    items.countP q = items.countP p ↔ ∀ a ∈ items, q a = true → p a = true := by
  have inner : items.filter p = (items.filter q).filter p := by
    rw [List.filter_filter]
    refine List.filter_congr fun a ha => ?_
    cases hp : p a with
    | false => rfl
    | true => rw [h a ha hp, Bool.and_true]
  rw [List.countP_eq_length_filter, List.countP_eq_length_filter, inner, eq_comm, List.length_filter_eq_length_iff]
  simp only [List.mem_filter, and_imp]

/-- A summary counts the documents that matched, and among them every one that is different afterwards. These are all
that it counts as modified exactly when the edits of no matching document cancel out, which edits at incomparable paths
never do. -/
theorem modified_exact_iff (keyed : ∀ d ∈ c.documents, d.isWellKeyed = true) (updateKeyed : update.isWellKeyed = true)
    (h : (updateMany filter update).run c = (.ok summary, after)) :
    summary.matched = c.count filter ∧ changes c.documents after.documents ≤ summary.modified ∧
      (summary.modified = changes c.documents after.documents ↔
        ∀ d ∈ c.documents, Document.matchesFilter filter d = true → ¬ CancelOut (listing update) d) ∧
      ((listing update).Pairwise (fun e f => Incomparable e.path f.path) →
        summary.modified = changes c.documents after.documents) := by
  obtain rfl := summary_of_updateMany h
  obtain ⟨-, taken, rfl⟩ := of_updateMany_eq_ok h
  have hv : ∀ e ∈ listing update, e.isWellKeyed = true := fun e he => Edit.isWellKeyed_of_mem_listing updateKeyed he
  have covered : ∀ d ∈ c.documents,
      (!(Value.object d).same (.object (edited filter (listing update) d))) = true →
        isTouched filter (listing update) d = true := by
    intro d hd differs
    by_contra untouched
    rw [edited_of_not_touched (by simpa using untouched), Value.same_refl (keyed d hd)] at differs
    cases differs
  have exact_iff : c.documents.countP (isTouched filter (listing update)) =
        changes c.documents (c.documents.map (edited filter (listing update))) ↔
      ∀ d ∈ c.documents, Document.matchesFilter filter d = true → ¬ CancelOut (listing update) d := by
    rw [changes_map, countP_eq_iff_of_imp covered]
    refine forall₂_congr fun d hd => ?_
    by_cases hm : Document.matchesFilter filter d = true
    · rw [← touched_and_same_iff hm (taken d hd hm)]
      simp [hm]
    · simp [isTouched, hm]
  refine ⟨rfl, ?_, exact_iff, fun apart => exact_iff.2 fun d hd _ => ?_⟩
  · rw [changes_map]
    exact List.countP_mono_left covered
  · exact Edit.not_cancelOut_of_incomparable (keyed d hd) hv apart

end Exact

/-- One document gets a field and loses it again, the other one loses its own: both count, and one is different. -/
theorem modified_exact_iff_twoLabs :
    let labs : Collection := ⟨[[("_id", .string "a")], [("_id", .string "b"), ("old", .int 5)]], numbered⟩
    let update : Document := [("$set", .object [("old", .int 1)]), ("$unset", .object [("old", .string "")])]
    ∃ after, (updateMany [] update).run labs = (.ok ⟨2, 2⟩, after) ∧ changes labs.documents after.documents = 1 ∧
      labs.count [] = 2 ∧ ∃ d ∈ labs.documents, CancelOut (listing update) d := by
  intro labs update
  have keyed : ∀ d ∈ labs.documents, d.isWellKeyed = true := by decide
  have updateKeyed : update.isWellKeyed = true := by decide
  have run : (updateMany [] update).run labs =
      (.ok ⟨2, 2⟩, ⟨[[("_id", .string "a")], [("_id", .string "b")]], numbered⟩) := rfl
  obtain ⟨matched, -, exactly, -⟩ := modified_exact_iff keyed updateKeyed run
  refine ⟨_, run, by decide, matched.symm, ?_⟩
  by_contra none
  simp only [not_exists, not_and] at none
  exact absurd (exactly.2 fun d hd _ => none d hd) (by decide)

/-- A field that is set and unset by one update makes a document count as modified that is the same as before. -/
theorem modified_counts_cancelled_out :
    ¬ ∀ (filter update : Document) (c after : Collection) (summary : UpdateSummary),
        (∀ d ∈ c.documents, d.isWellKeyed = true) → update.isWellKeyed = true →
        (updateMany filter update).run c = (.ok summary, after) →
        summary.matched = c.count filter ∧ summary.modified = changes c.documents after.documents := by
  intro always
  have run : (updateMany [] [("$set", .object [("a", .int 1)]), ("$unset", .object [("a", .string "")])]).run
      ⟨[[("_id", .string "a")]], numbered⟩ = (.ok ⟨1, 1⟩, ⟨[[("_id", .string "a")]], numbered⟩) := rfl
  obtain ⟨-, modified⟩ := always _ _ _ _ _ (by decide) (by decide) run
  exact absurd modified (by decide)

end Collection

end BucketBench
