import BucketBench.Proofs.Store.Edit
import BucketBench.Store.Call

set_option autoImplicit false

namespace BucketBench.Collection

open Edit (Acceptable Settled listing MeetsObstacle)

/-! ## Copies -/

/-- A document after the edits: its copy when it matches and a copy is made of it. -/
def edited (filter : Document) (edits : List Edit) (d : Document) : Document :=
  if Document.matchesFilter filter d then
    match Edit.applyAll edits d with
    | .ok (after, true) => after
    | _ => d
  else d

theorem edited_of_not_matches {filter : Document} {edits : List Edit} {d : Document}
    (h : Document.matchesFilter filter d = false) : edited filter edits d = d := by
  simp [edited, h]

theorem prepare_fails_iff (filter : Document) (edits : List Edit) (place : Nat) (documents : List Document) :
    (∃ fault, prepare filter edits place documents = .error fault) ↔
      ∃ d ∈ documents, Document.matchesFilter filter d = true ∧ ∃ fault, Edit.applyAll edits d = .error fault := by
  induction documents generalizing place with
  | nil => simp [prepare]
  | cons d rest ih =>
    by_cases h : Document.matchesFilter filter d = true
    · simp only [prepare, h, if_true, bind_fails_iff, Prod.exists, List.mem_cons, exists_eq_or_imp, true_and, ih]
      constructor
      · rintro (fails | ⟨after, changed, -, later | ⟨_, _, -, _, e⟩⟩)
        · exact Or.inl fails
        · exact Or.inr later
        · cases e
      · rintro (fails | later)
        · exact Or.inl fails
        · rcases ok_or_fails (Edit.applyAll edits d) with ⟨⟨after, changed⟩, e⟩ | fails
          · exact Or.inr ⟨after, changed, e, Or.inl later⟩
          · exact Or.inl fails
    · simp only [prepare, h, Bool.false_eq_true, if_false, List.mem_cons, exists_eq_or_imp, false_and, false_or, ih]

theorem exists_notADocument_of_prepare {filter : Document} {edits : List Edit} {place : Nat} {documents : List Document}
    {fault : StoreFault} (h : prepare filter edits place documents = .error fault) :
    ∃ field part path, fault = .notADocument field part path := by
  induction documents generalizing place with
  | nil => cases h
  | cons d rest ih =>
    rw [prepare] at h
    split at h
    · rcases bind_eq_error_iff.1 h with here | ⟨⟨after, changed⟩, -, h⟩
      · exact Edit.exists_notADocument_of_applyAll here
      · rcases bind_eq_error_iff.1 h with later | ⟨_, -, none⟩
        · exact ih later
        · cases none
    · exact ih h

theorem commit_cons (place : Nat) (after : Document) (copies : List (Nat × Document)) (documents : List Document) :
    commit ((place, after) :: copies) documents = commit copies (documents.set place after) := rfl

/-- Stored in their places, the copies are the edited documents. The documents in front of the first place stay. -/
theorem commit_prepare {filter : Document} {edits : List Edit} {documents front : List Document} {place : Nat}
    {summary : UpdateSummary} {copies : List (Nat × Document)} (hp : front.length = place)
    (h : prepare filter edits place documents = .ok (summary, copies)) :
    commit copies (front ++ documents) = front ++ documents.map (edited filter edits) := by
  induction documents generalizing front place summary copies with
  | nil =>
    simp only [prepare, Except.ok.injEq, Prod.mk.injEq] at h
    rw [← h.2]
    rfl
  | cons d rest ih =>
    have step : ∀ (e : Document) {summary : UpdateSummary} {copies : List (Nat × Document)},
        prepare filter edits (place + 1) rest = .ok (summary, copies) →
          commit copies (front ++ e :: rest) = front ++ e :: rest.map (edited filter edits) := by
      intro e summary copies hr
      have longer : (front ++ [e]).length = place + 1 := by simp [hp]
      simpa using ih longer hr
    rw [List.map_cons]
    by_cases hm : Document.matchesFilter filter d = true
    · simp only [prepare, hm, if_true] at h
      obtain ⟨⟨after, changed⟩, ha, h⟩ := bind_eq_ok_iff.1 h
      obtain ⟨⟨counts, more⟩, hr, h⟩ := bind_eq_ok_iff.1 h
      cases changed with
      | true =>
        cases h
        have written : (front ++ d :: rest).set place after = front ++ after :: rest := by
          rw [List.set_append_right _ _ (by omega), hp, Nat.sub_self, List.set_cons_zero]
        rw [commit_cons, written, step after hr]
        simp [edited, hm, ha]
      | false =>
        cases h
        rw [step d hr]
        simp [edited, hm, ha]
    · simp only [prepare, hm, Bool.false_eq_true, if_false] at h
      rw [step d h, edited_of_not_matches (by simpa using hm)]

/-! ## Whole updates -/

/-- An update stores nothing before its last step. -/
theorem run_updateMany (filter update : Document) (c : Collection) :
    (updateMany filter update).run c =
      match Edit.ofUpdate update with
      | .error fault => (.error fault, c)
      | .ok edits =>
        match prepare filter edits 0 c.documents with
        | .error fault => (.error fault, c)
        | .ok (summary, copies) => (.ok summary, { c with documents := commit copies c.documents }) := by
  rw [updateMany, run_bind, run_lifted]
  cases Edit.ofUpdate update with
  | error fault => rfl
  | ok edits =>
    simp only
    rw [run_bind, run_get]
    simp only
    rw [run_bind, run_lifted]
    cases prepare filter edits 0 c.documents with
    | error fault => rfl
    | ok r => rfl

section Run

variable {filter update : Document} {c after : Collection}

theorem of_updateMany_eq_ok {summary : UpdateSummary} (h : (updateMany filter update).run c = (.ok summary, after)) :
    Acceptable update ∧
      (∀ d ∈ c.documents, Document.matchesFilter filter d = true → ∃ r, Edit.applyAll (listing update) d = .ok r) ∧
      after = { c with documents := c.documents.map (edited filter (listing update)) } := by
  rw [run_updateMany] at h
  split at h
  · cases h
  · rename_i edits he
    obtain ⟨acceptable, rfl⟩ := (Edit.ofUpdate_eq_ok_iff update edits).1 he
    split at h
    · cases h
    · rename_i counts copies hp
      cases h
      have stored := commit_prepare (List.length_nil (α := Document)) hp
      refine ⟨acceptable, ?_, by simpa using stored⟩
      intro d hd hm
      rcases ok_or_fails (Edit.applyAll (listing update) d) with taken | fails
      · exact taken
      · obtain ⟨fault, e⟩ := (prepare_fails_iff filter (listing update) 0 c.documents).2 ⟨d, hd, hm, fails⟩
        rw [hp] at e
        cases e

theorem eq_of_updateMany_eq_error {fault : StoreFault}
    (h : (updateMany filter update).run c = (.error fault, after)) : after = c := by
  rw [run_updateMany] at h
  split at h
  · cases h
    rfl
  · split at h
    · cases h
      rfl
    · cases h

theorem exists_notADocument_of_updateMany {fault : StoreFault} (acceptable : Acceptable update)
    (h : (updateMany filter update).run c = (.error fault, after)) :
    ∃ field part path, fault = .notADocument field part path := by
  have edits : Edit.ofUpdate update = .ok (listing update) := (Edit.ofUpdate_eq_ok_iff update _).2 ⟨acceptable, rfl⟩
  rw [run_updateMany, edits] at h
  simp only at h
  split at h
  · rename_i fails
    cases h
    exact exists_notADocument_of_prepare fails
  · cases h

theorem updateMany_eq_ok_of_taken (acceptable : Acceptable update)
    (taken : ∀ d ∈ c.documents, Document.matchesFilter filter d = true →
      ∃ r, Edit.applyAll (listing update) d = .ok r) :
    ∃ summary after, (updateMany filter update).run c = (.ok summary, after) := by
  rcases ok_or_fails (prepare filter (listing update) 0 c.documents) with ⟨⟨summary, copies⟩, e⟩ | fails
  · refine ⟨summary, { c with documents := commit copies c.documents }, ?_⟩
    rw [run_updateMany, (Edit.ofUpdate_eq_ok_iff update _).2 ⟨acceptable, rfl⟩]
    simp only [e]
  · obtain ⟨d, hd, hm, fault, h⟩ := (prepare_fails_iff filter (listing update) 0 c.documents).1 fails
    obtain ⟨r, hr⟩ := taken d hd hm
    rw [hr] at h
    cases h

theorem updateMany_fails_of_prepare (acceptable : Acceptable update)
    (fails : ∃ fault, prepare filter (listing update) 0 c.documents = .error fault) :
    ∃ fault, ((updateMany filter update).run c).1 = .error fault := by
  obtain ⟨fault, h⟩ := fails
  refine ⟨fault, ?_⟩
  rw [run_updateMany, (Edit.ofUpdate_eq_ok_iff update _).2 ⟨acceptable, rfl⟩]
  simp only [h]

theorem updateMany_fails_of_not_acceptable (h : ¬ Acceptable update) :
    ∃ fault, ((updateMany filter update).run c).1 = .error fault := by
  obtain ⟨fault, e⟩ := Edit.ofUpdate_of_not_acceptable h
  exact ⟨fault, by rw [run_updateMany, e]⟩

end Run

/-- An update fails exactly when an operator is unknown, an operand is no document, or the edits of some matching
document meet an obstacle; and a failed update changes nothing at all, wherever it failed. -/
theorem updateMany_fails_iff (filter update : Document) (c : Collection) :
    ((∃ fault, ((updateMany filter update).run c).1 = .error fault) ↔
      (∃ m ∈ update, m.1 ≠ "$set" ∧ m.1 ≠ "$unset") ∨ (∃ m ∈ update, m.2.isObject = false) ∨
        ∃ d ∈ c.documents, Document.matchesFilter filter d = true ∧ MeetsObstacle (listing update) d) ∧
      ((∃ fault, ((updateMany filter update).run c).1 = .error fault) → ((updateMany filter update).run c).2 = c) := by
  constructor
  · have obstacles : (∃ fault, prepare filter (listing update) 0 c.documents = .error fault) ↔
        ∃ d ∈ c.documents, Document.matchesFilter filter d = true ∧ MeetsObstacle (listing update) d := by
      simp only [prepare_fails_iff, Edit.applyAll_fails_iff]
    rw [← obstacles]
    constructor
    · rintro ⟨fault, h⟩
      by_cases acceptable : Acceptable update
      · rw [run_updateMany, (Edit.ofUpdate_eq_ok_iff update _).2 ⟨acceptable, rfl⟩] at h
        rcases ok_or_fails (prepare filter (listing update) 0 c.documents) with ⟨r, e⟩ | fails
        · simp [e] at h
        · exact Or.inr (Or.inr fails)
      · obtain ⟨m, hm, bad⟩ : ∃ m ∈ update, ¬ ((m.1 = "$set" ∨ m.1 = "$unset") ∧ m.2.isObject = true) := by
          simpa only [Acceptable, not_forall, exists_prop] using acceptable
        rcases not_and_or.1 bad with unknown | operand
        · exact Or.inl ⟨m, hm, not_or.1 unknown⟩
        · exact Or.inr (Or.inl ⟨m, hm, by simpa using operand⟩)
    · rintro (⟨m, hm, notSet, notUnset⟩ | ⟨m, hm, operand⟩ | fails)
      · apply updateMany_fails_of_not_acceptable
        exact fun acceptable => (acceptable m hm).1.elim notSet notUnset
      · apply updateMany_fails_of_not_acceptable
        exact fun acceptable => by simp [(acceptable m hm).2] at operand
      · by_cases acceptable : Acceptable update
        · exact updateMany_fails_of_prepare acceptable fails
        · exact updateMany_fails_of_not_acceptable acceptable
  · rintro ⟨fault, h⟩
    exact eq_of_updateMany_eq_error (Prod.ext h rfl)

/-! ## The documents after an update -/

theorem matchesFilter_singleton (path : String) (expected : Value) (d : Document) :
    Document.matchesFilter [(path, expected)] d = meets (d.at? (pathKeys path)) expected := by
  simp [Document.matchesFilter]

theorem meets_of_same {v expected : Value} (h : v.same expected = true) : meets (some v) expected = true := by
  have arrays := Value.isArray_of_same h
  cases v with
  | array items =>
    have isArray : expected.isArray = true := arrays.symm
    simpa only [meets, isArray, if_true] using h
  | _ => exact h

theorem matchesFilter_of_settled_set {path : String} {value : Value} {d : Document}
    (h : Settled d (.set path value)) : Document.matchesFilter [(path, value)] d = true := by
  obtain ⟨v, found, hv⟩ := h
  rw [matchesFilter_singleton, found]
  exact meets_of_same hv

theorem matchesFilter_of_settled_unset {path : String} {d : Document} (h : Settled d (.unset path)) :
    Document.matchesFilter [(path, .null)] d = true := by
  have gone : d.at? (pathKeys path) = none := h
  rw [matchesFilter_singleton, gone]
  rfl

section Edited

variable {filter d : Document} {edits : List Edit}

/-- What the edits settle is settled in every document that matched, whether it was replaced or not. -/
theorem settled_edited_of_settled {after : Document} {changed : Bool} {e : Edit} (keyed : d.isWellKeyed = true)
    (hv : ∀ e ∈ edits, e.isWellKeyed = true) (hm : Document.matchesFilter filter d = true)
    (taken : Edit.applyAll edits d = .ok (after, changed)) (he : e ∈ edits) (settled : Settled after e) :
    Settled (edited filter edits d) e := by
  cases changed with
  | true => simpa only [edited, hm, if_true, taken] using settled
  | false =>
    -- no copy was stored, and the document is the same as the copy would be
    have same := Edit.same_applyAll_of_unchanged keyed hv taken
    have before := Edit.settled_of_same keyed (Edit.isWellKeyed_applyAll keyed hv taken) (hv e he) same settled
    simpa only [edited, hm, if_true, taken] using before

theorem settled_edited (keyed : d.isWellKeyed = true) (hv : ∀ e ∈ edits, e.isWellKeyed = true)
    (apart : edits.Pairwise fun e f => Incomparable e.path f.path) (hm : Document.matchesFilter filter d = true)
    (taken : ∃ r, Edit.applyAll edits d = .ok r) : ∀ e ∈ edits, Settled (edited filter edits d) e := by
  obtain ⟨⟨after, changed⟩, h⟩ := taken
  intro e he
  exact settled_edited_of_settled keyed hv hm h he (Edit.settled_applyAll keyed hv apart h e he)

theorem at?_edited_of_incomparable (keyed : d.isWellKeyed = true) (hv : ∀ e ∈ edits, e.isWellKeyed = true)
    {other : String} (apart : ∀ e ∈ edits, Incomparable e.path other) :
    (edited filter edits d).at? (pathKeys other) = d.at? (pathKeys other) := by
  unfold edited
  split
  · split
    · rename_i after h
      exact Edit.at?_applyAll_of_incomparable keyed hv apart h
    · rfl
  · rfl

theorem isWellKeyed_edited (keyed : d.isWellKeyed = true) (hv : ∀ e ∈ edits, e.isWellKeyed = true) :
    (edited filter edits d).isWellKeyed = true := by
  unfold edited
  split
  · split
    · rename_i after h
      exact Edit.isWellKeyed_applyAll keyed hv h
    · exact keyed
  · exact keyed

end Edited

/-- A successful update at incomparable paths, document by document: one that matched has every value that was
set and none that was unset, matches filters that say so, and is as it was elsewhere; all others are as they
were, and every document keeps its place. -/
theorem updateMany_settles {filter update : Document} {c after : Collection} {summary : UpdateSummary}
    (keyed : ∀ d ∈ c.documents, d.isWellKeyed = true) (updateKeyed : update.isWellKeyed = true)
    (apart : (listing update).Pairwise fun e f => Incomparable e.path f.path)
    (h : (updateMany filter update).run c = (.ok summary, after)) :
    after.documents.length = c.documents.length ∧
      ∀ (i : Nat) (d : Document), c.documents[i]? = some d → ∃ d' : Document, after.documents[i]? = some d' ∧
        (Document.matchesFilter filter d = false → d' = d) ∧
        (Document.matchesFilter filter d = true →
          (∀ path value, .set path value ∈ listing update →
            (∃ v, d'.at? (pathKeys path) = some v ∧ v.same value = true) ∧
              Document.matchesFilter [(path, value)] d' = true) ∧
          (∀ path, .unset path ∈ listing update →
            d'.at? (pathKeys path) = none ∧ Document.matchesFilter [(path, .null)] d' = true) ∧
          ∀ other, (∀ e ∈ listing update, Incomparable e.path other) →
            d'.at? (pathKeys other) = d.at? (pathKeys other)) := by
  obtain ⟨-, taken, rfl⟩ := of_updateMany_eq_ok h
  have hv : ∀ e ∈ listing update, e.isWellKeyed = true := fun e he => Edit.isWellKeyed_of_mem_listing updateKeyed he
  refine ⟨List.length_map _, ?_⟩
  intro i d hd
  have mem : d ∈ c.documents := List.mem_of_getElem? hd
  refine ⟨edited filter (listing update) d, by simp [hd], edited_of_not_matches, ?_⟩
  intro hm
  have settled := settled_edited (keyed d mem) hv apart hm (taken d mem hm)
  refine ⟨?_, ?_, ?_⟩
  · intro path value hset
    exact ⟨settled _ hset, matchesFilter_of_settled_set (settled _ hset)⟩
  · intro path hunset
    exact ⟨settled _ hunset, matchesFilter_of_settled_unset (settled _ hunset)⟩
  · intro other away
    exact at?_edited_of_incomparable (keyed d mem) hv away

theorem updateMany_settles_below_document :
    let lab : Document := [("_id", .string "a"), ("lb", .object [("ip", .string "x")]), ("old", .int 1)]
    let update : Document :=
      [("$set", .object [("lb.ip", .string "y"), ("env.nodes", .int 6)]), ("$unset", .object [("old", .null)])]
    let settled : Document :=
      [("_id", .string "a"), ("lb", .object [("ip", .string "y")]), ("env", .object [("nodes", .int 6)])]
    (updateMany [("_id", .string "a")] update).run ⟨[[("_id", .string "b")], lab], numbered⟩ =
        (.ok ⟨1, 1⟩, ⟨[[("_id", .string "b")], settled], numbered⟩) ∧
      Document.matchesFilter [("lb.ip", .string "y")] settled = true ∧
      Document.matchesFilter [("env.nodes", .int 6)] settled = true ∧
      Document.matchesFilter [("old", .null)] settled = true := by
  intro lab update settled
  have keyed : ∀ d ∈ [[("_id", .string "b")], lab], Document.isWellKeyed d = true := by decide
  have updateKeyed : update.isWellKeyed = true := by decide
  have apart : (listing update).Pairwise fun e f => Incomparable e.path f.path := by decide
  have run : (updateMany [("_id", .string "a")] update).run ⟨[[("_id", .string "b")], lab], numbered⟩ =
        (.ok ⟨1, 1⟩, ⟨[[("_id", .string "b")], settled], numbered⟩) := rfl
  obtain ⟨-, each⟩ := updateMany_settles keyed updateKeyed apart run
  obtain ⟨d', hd', -, matched⟩ := each 1 lab rfl
  cases hd'
  obtain ⟨set, unset, -⟩ := matched (by decide)
  refine ⟨run, ?_, ?_, ?_⟩
  · exact (set "lb.ip" (.string "y") (by simp [listing, update, Edit.ofField])).2
  · exact (set "env.nodes" (.int 6) (by simp [listing, update, Edit.ofField])).2
  · exact (unset "old" (by simp [listing, update, Edit.ofField])).2

end BucketBench.Collection
