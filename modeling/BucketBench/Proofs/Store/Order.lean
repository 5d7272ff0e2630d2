import BucketBench.Proofs.Store.Alike
import BucketBench.Proofs.Store.Independent

set_option autoImplicit false

namespace BucketBench

open List (Forall₂)

namespace Edit

/-- One edit at one path; a value that is set may have its members in another order. -/
inductive Alike : Edit → Edit → Prop where
  | set (path : String) {v w : Value} (h : v.Alike w) : Alike (.set path v) (.set path w)
  | unset (path : String) : Alike (.unset path) (.unset path)

structure SameEdits (edits edits' : List Edit) : Prop where
  forth : ∀ e ∈ edits, ∃ e' ∈ edits', e.Alike e'
  back : ∀ e' ∈ edits', ∃ e ∈ edits, e.Alike e'

namespace Alike

variable {e e' : Edit} {d after after' : Document}

theorem refl (hv : e.isWellKeyed = true) : e.Alike e := by
  cases e with
  | set path value => exact .set path (.refl hv)
  | unset path => exact .unset path

theorem symm (h : e.Alike e') : e'.Alike e := by
  cases h with
  | set path alike => exact .set path alike.symm
  | unset path => exact .unset path

theorem path_eq (h : e.Alike e') : e.path = e'.path := by
  cases h <;> rfl

theorem isWellKeyed (h : e.Alike e') : e.isWellKeyed = true := by
  cases h with
  | set path alike => exact alike.left
  | unset path => rfl

theorem fails (h : e.Alike e') (fails : ∃ fault, apply d e = .error fault) : ∃ fault, apply d e' = .error fault := by
  rw [apply_fails_iff] at fails ⊢
  obtain ⟨path, value, rfl, blocked⟩ := fails
  cases h with
  | set path alike => exact ⟨path, _, rfl, blocked⟩

theorem settled (h : e.Alike e') (keyed : d.isWellKeyed = true) (settled : Settled d e) : Settled d e' := by
  cases h with
  | set path alike =>
    obtain ⟨v, found, same⟩ := settled
    have old : v.isWellKeyed = true := Document.isWellKeyed_at? keyed found
    exact ⟨v, found, Value.same_trans old alike.left alike.right same alike.same⟩
  | unset path => exact settled

/-- Documents in which alike edits are settled have alike values at their path. -/
theorem findAlike (h : e.Alike e') (keyed : after.isWellKeyed = true) (keyed' : after'.isWellKeyed = true)
    (settled : Settled after e) (settled' : Settled after' e') :
    FindAlike (after.at? (pathKeys e.path)) (after'.at? (pathKeys e.path)) := by
  cases h with
  | unset path =>
    have gone : after.at? (pathKeys path) = none := settled
    have gone' : after'.at? (pathKeys path) = none := settled'
    show FindAlike (after.at? (pathKeys path)) (after'.at? (pathKeys path))
    rw [gone, gone']
    exact .none
  | set path alike =>
    obtain ⟨v, found, same⟩ := settled
    obtain ⟨w, found', same'⟩ := settled'
    have left : v.Alike _ := ⟨Document.isWellKeyed_at? keyed found, alike.left, same⟩
    have right : w.Alike _ := ⟨Document.isWellKeyed_at? keyed' found', alike.right, same'⟩
    show FindAlike (after.at? (pathKeys path)) (after'.at? (pathKeys path))
    rw [found, found']
    exact .some ((left.trans alike).trans right.symm)

/-- Inside the place of an edit is what the edit put there. -/
theorem outlinesAlike_inside {place : List String} (h : e.Alike e') (keyed : after.isWellKeyed = true)
    (keyed' : after'.isWellKeyed = true) (settled : Settled after e) (settled' : Settled after' e')
    (inside : pathKeys e.path <+: place) : OutlinesAlike (after.at? place) (after'.at? place) := by
  obtain ⟨rest, rfl⟩ := inside
  exact (Document.findAlike_append (pathKeys_ne_nil e.path) rest (h.findAlike keyed keyed' settled settled')).outlines

end Alike

/-- Around a value that was set are documents. -/
theorem outlinesAlike_around {place : List String} {path : String} {v w : Value} {after after' : Document}
    (settled : Settled after (.set path v)) (settled' : Settled after' (.set path w)) (nonempty : place ≠ [])
    (around : place <+: pathKeys path) (above : place ≠ pathKeys path) :
    OutlinesAlike (after.at? place) (after'.at? place) := by
  obtain ⟨rest, front⟩ := around
  have more : rest ≠ [] := by
    rintro rfl
    exact above (by simpa using front)
  obtain ⟨_, found, -⟩ := settled
  obtain ⟨_, found', -⟩ := settled'
  rw [← front] at found found'
  obtain ⟨inner, hi⟩ := Document.exists_object_above nonempty more found
  obtain ⟨inner', hi'⟩ := Document.exists_object_above nonempty more found'
  rw [hi, hi']
  exact .some (.refl rfl)

namespace SameEdits

variable {edits edits' : List Edit} {d : Document}

theorem of_perm (hv : ∀ e ∈ edits, e.isWellKeyed = true) (h : edits.Perm edits') : SameEdits edits edits' where
  forth e he := ⟨e, h.mem_iff.1 he, .refl (hv e he)⟩
  back e he := ⟨e, h.mem_iff.2 he, .refl (hv e (h.mem_iff.2 he))⟩

theorem symm (h : SameEdits edits edits') : SameEdits edits' edits where
  forth e' he' := by
    obtain ⟨e, he, alike⟩ := h.back e' he'
    exact ⟨e, he, alike.symm⟩
  back e he := by
    obtain ⟨e', he', alike⟩ := h.forth e he
    exact ⟨e', he', alike.symm⟩

theorem isWellKeyed (h : SameEdits edits edits') : ∀ e ∈ edits, e.isWellKeyed = true := by
  intro e he
  obtain ⟨e', -, alike⟩ := h.forth e he
  exact alike.isWellKeyed

theorem fails (h : SameEdits edits edits') (fails : ∃ e ∈ edits, ∃ fault, apply d e = .error fault) :
    ∃ e ∈ edits', ∃ fault, apply d e = .error fault := by
  obtain ⟨e, he, fails⟩ := fails
  obtain ⟨e', he', alike⟩ := h.forth e he
  exact ⟨e', he', alike.fails fails⟩

theorem unsettled (h : SameEdits edits edits') (keyed : d.isWellKeyed = true) (unsettled : ∃ e ∈ edits, ¬ Settled d e) :
    ∃ e ∈ edits', ¬ Settled d e := by
  obtain ⟨e, he, unsettled⟩ := unsettled
  obtain ⟨e', he', alike⟩ := h.forth e he
  exact ⟨e', he', fun settled => unsettled (alike.symm.settled keyed settled)⟩

end SameEdits

section Run

variable {edits edits' : List Edit} {d after after' : Document} {changed changed' : Bool} {place : List String}

/-- Edits of which none leads to a place, and none sets anything below it, leave the outline that is there. -/
theorem outline_applyAll (keyed : d.isWellKeyed = true) (hv : ∀ e ∈ edits, e.isWellKeyed = true)
    (outside : ∀ e ∈ edits, ¬ pathKeys e.path <+: place)
    (noSet : ∀ path value, .set path value ∈ edits → ¬ place <+: pathKeys path)
    (h : applyAll edits d = .ok (after, changed)) :
    (after.at? place).map Value.outline = (d.at? place).map Value.outline := by
  induction edits generalizing d changed with
  | nil =>
    cases h
    rfl
  | cons edit rest ih =>
    rw [List.forall_mem_cons] at hv outside
    obtain ⟨middle, first, more, hf, hm, -⟩ := applyAll_cons_eq_ok_iff.1 h
    have step : (middle.at? place).map Value.outline = (d.at? place).map Value.outline := by
      cases edit with
      | set path value =>
        have apart : Apart (pathKeys path) place := ⟨outside.1, noSet path value List.mem_cons_self⟩
        rw [Document.at?_setAt_of_apart apart (apply_set_eq_ok_iff.1 hf).1]
      | unset path =>
        obtain ⟨rfl, -⟩ := apply_unset_eq_ok_iff.1 hf
        exact Document.outline_unsetAt outside.1 keyed
    have later := ih (isWellKeyed_apply keyed hv.1 hf) hv.2 outside.2
      (fun path value he => noSet path value (List.mem_cons_of_mem _ he)) hm
    rw [later, step]

/-- What stands at a place after independent edits has an outline that does not depend on their order. -/
theorem outlinesAlike_applyAll (keyed : d.isWellKeyed = true) (same : SameEdits edits edits')
    (apart : edits.Pairwise fun e f => Incomparable e.path f.path)
    (apart' : edits'.Pairwise fun e f => Incomparable e.path f.path) (h : applyAll edits d = .ok (after, changed))
    (h' : applyAll edits' d = .ok (after', changed')) : OutlinesAlike (after.at? place) (after'.at? place) := by
  have settled := settled_applyAll keyed same.isWellKeyed apart h
  have settled' := settled_applyAll keyed same.symm.isWellKeyed apart' h'
  cases place with
  | nil => exact .none
  | cons key place =>
    by_cases inside : ∃ e ∈ edits, pathKeys e.path <+: key :: place
    · obtain ⟨e, he, front⟩ := inside
      obtain ⟨e', he', alike⟩ := same.forth e he
      exact alike.outlinesAlike_inside (isWellKeyed_applyAll keyed same.isWellKeyed h)
        (isWellKeyed_applyAll keyed same.symm.isWellKeyed h') (settled e he) (settled' e' he') front
    · by_cases around : ∃ path value, .set path value ∈ edits ∧ key :: place <+: pathKeys path
      · obtain ⟨path, value, he, front⟩ := around
        have above : key :: place ≠ pathKeys path := fun here => inside ⟨_, he, here ▸ List.prefix_rfl⟩
        obtain ⟨e', he', alike⟩ := same.forth _ he
        cases alike with
        | set _ values =>
          exact outlinesAlike_around (settled _ he) (settled' _ he') (List.cons_ne_nil key place) front above
      · -- elsewhere is what was there before
        have inside' : ∀ e' ∈ edits', ¬ pathKeys e'.path <+: key :: place := by
          intro e' he' front
          obtain ⟨e, he, alike⟩ := same.back e' he'
          exact inside ⟨e, he, alike.path_eq ▸ front⟩
        have around' : ∀ path value, .set path value ∈ edits' → ¬ key :: place <+: pathKeys path := by
          intro path value he' front
          obtain ⟨e, he, alike⟩ := same.back _ he'
          cases alike with
          | set _ values => exact around ⟨path, _, he, front⟩
        have kept : (after.at? (key :: place)).map Value.outline = (d.at? (key :: place)).map Value.outline :=
          outline_applyAll keyed same.isWellKeyed (fun e he front => inside ⟨e, he, front⟩)
            (fun path value he front => around ⟨path, value, he, front⟩) h
        have kept' : (after'.at? (key :: place)).map Value.outline = (d.at? (key :: place)).map Value.outline :=
          outline_applyAll keyed same.symm.isWellKeyed inside' around' h'
        have before : FindAlike (d.at? (key :: place)) (d.at? (key :: place)) := Document.alike_at? (.refl keyed) _
        rw [OutlinesAlike, kept, kept']
        exact before.outlines

/-- Independent edits make alike copies in any order, and report a change in each or in none. -/
theorem alike_applyAll_of_sameEdits (keyed : d.isWellKeyed = true) (same : SameEdits edits edits')
    (apart : edits.Pairwise fun e f => Incomparable e.path f.path)
    (apart' : edits'.Pairwise fun e f => Incomparable e.path f.path) :
    Likewise CopiesAlike (applyAll edits d) (applyAll edits' d) := by
  have hv := same.isWellKeyed
  have hv' := same.symm.isWellKeyed
  have fails_iff : (∃ fault, applyAll edits d = .error fault) ↔ ∃ fault, applyAll edits' d = .error fault := by
    rw [applyAll_fails_iff_of_incomparable keyed hv apart, applyAll_fails_iff_of_incomparable keyed hv' apart']
    exact ⟨same.fails, same.symm.fails⟩
  rcases ok_or_fails (applyAll edits d) with ⟨⟨after, changed⟩, h⟩ | fails
  · rcases ok_or_fails (applyAll edits' d) with ⟨⟨after', changed'⟩, h'⟩ | fails'
    · have flags : changed = true ↔ changed' = true := by
        rw [changed_iff_of_incomparable keyed hv apart h, changed_iff_of_incomparable keyed hv' apart' h']
        exact ⟨same.unsettled keyed, same.symm.unsettled keyed⟩
      have copies : after.Alike after' :=
        Document.alike_of_outlines (isWellKeyed_applyAll keyed hv h) (isWellKeyed_applyAll keyed hv' h')
          fun place => outlinesAlike_applyAll keyed same apart apart' h h'
      rw [h, h']
      exact .ok ⟨copies, Bool.eq_iff_iff.2 flags⟩
    · obtain ⟨fault, fails⟩ := fails_iff.2 fails'
      rw [h] at fails
      cases fails
  · obtain ⟨fault', h'⟩ := fails_iff.1 fails
    obtain ⟨fault, h⟩ := fails
    rw [h, h']
    exact .error fault fault'

end Run

end Edit

namespace Collection

open Edit (SameEdits listing)

/-- Two updates that spell the same edits at incomparable paths, whatever the order of operators and of their fields, both
fail or both succeed with equal counts, and leave documents that are alike one by one. -/
theorem updateMany_of_sameEdits {update update' : Document} {c : Collection} (filter : Document)
    (keyed : ∀ d ∈ c.documents, d.isWellKeyed = true) (known : Edit.Acceptable update ↔ Edit.Acceptable update')
    (same : SameEdits (listing update) (listing update'))
    (apart : (listing update).Pairwise fun e f => Incomparable e.path f.path)
    (apart' : (listing update').Pairwise fun e f => Incomparable e.path f.path) :
    Likewise Eq ((updateMany filter update).run c).1 ((updateMany filter update').run c).1 ∧
      AllAlike ((updateMany filter update).run c).2.documents ((updateMany filter update').run c).2.documents := by
  have itself : AllAlike c.documents c.documents := List.forall₂_same.2 fun d hd => .refl (keyed d hd)
  have copies : Forall₂ (fun d e => Document.matchesFilter filter d = Document.matchesFilter filter e ∧
      Likewise Edit.CopiesAlike (Edit.applyAll (listing update) d) (Edit.applyAll (listing update') e))
      c.documents c.documents :=
    List.forall₂_same.2 fun d hd => ⟨rfl, Edit.alike_applyAll_of_sameEdits (keyed d hd) same apart apart'⟩
  exact alike_updateMany_of_plans known itself (likewise_prepare copies 0)

/-- Backwards, the same edits leave the members of `lb` in another order. -/
theorem updateMany_of_sameEdits_backwards :
    let lab : Document := [("_id", .int 1), ("lb", .object [("old", .int 5), ("ip", .string "x")])]
    let update : Document :=
      [("$set", .object [("lb.port", .int 80), ("env.nodes", .int 6)]),
        ("$unset", .object [("lb.old", .null), ("env.old", .null)])]
    let backwards : Document :=
      [("$unset", .object [("env.old", .string ""), ("lb.old", .string "")]),
        ("$set", .object [("env.nodes", .int 6), ("lb.port", .int 80)])]
    let after : Document :=
      [("_id", .int 1), ("lb", .object [("port", .int 80), ("ip", .string "x")]), ("env", .object [("nodes", .int 6)])]
    let after' : Document :=
      [("_id", .int 1), ("lb", .object [("ip", .string "x"), ("port", .int 80)]), ("env", .object [("nodes", .int 6)])]
    (updateMany [] update).run ⟨[lab], numbered⟩ = (.ok ⟨1, 1⟩, ⟨[after], numbered⟩) ∧
      (updateMany [] backwards).run ⟨[lab], numbered⟩ = (.ok ⟨1, 1⟩, ⟨[after'], numbered⟩) ∧
      AllAlike [after] [after'] := by
  intro lab update backwards after after'
  have keyed : ∀ d ∈ [lab], Document.isWellKeyed d = true := by decide
  have known : Edit.Acceptable update ↔ Edit.Acceptable backwards :=
    iff_of_true (by simp [Edit.Acceptable, update, Value.isObject]) (by simp [Edit.Acceptable, backwards, Value.isObject])
  have hv : ∀ e ∈ listing update, e.isWellKeyed = true := fun e he => Edit.isWellKeyed_of_mem_listing (by decide) he
  have reversed : listing backwards = (listing update).reverse := rfl
  have same : SameEdits (listing update) (listing backwards) := .of_perm hv (reversed ▸ (List.reverse_perm _).symm)
  have apart : (listing update).Pairwise fun e f => Incomparable e.path f.path := by decide
  have apart' : (listing backwards).Pairwise fun e f => Incomparable e.path f.path := by decide
  have stored := (updateMany_of_sameEdits (c := ⟨[lab], numbered⟩) [] keyed known same apart apart').2
  exact ⟨rfl, rfl, stored⟩

end Collection

end BucketBench
