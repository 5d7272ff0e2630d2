import BucketBench.Proofs.Outcome
import BucketBench.Proofs.Store.Walk

set_option autoImplicit false

/-!
# The laws of edits

What an update document spells, when a run of edits fails, and what it leaves behind. Edits at incomparable
paths do not disturb each other, so after all of them each one is settled; and when none of them reports a
change, the document is the same as before.
-/

namespace BucketBench.Edit

/-! ## The edits that an update spells -/

def path : Edit → String
  | .set path _ => path
  | .unset path => path

def isWellKeyed : Edit → Bool
  | .set _ value => value.isWellKeyed
  | .unset _ => true

def ofField (operator : String) (field : String × Value) : Edit :=
  if operator = "$set" then .set field.1 field.2 else .unset field.1

def listing (update : Document) : List Edit :=
  update.flatMap fun m => match m.2 with
    | .object fields => fields.map (ofField m.1)
    | _ => []

def Acceptable (update : Document) : Prop :=
  ∀ m ∈ update, (m.1 = "$set" ∨ m.1 = "$unset") ∧ m.2.isObject = true

theorem acceptable_cons_iff (m : String × Value) (rest : Document) :
    Acceptable (m :: rest) ↔ ((m.1 = "$set" ∨ m.1 = "$unset") ∧ m.2.isObject = true) ∧ Acceptable rest := by
  simp only [Acceptable, List.mem_cons, forall_eq_or_imp]

theorem ofOperator_of_acceptable {operator : String} {operand : Value}
    (known : operator = "$set" ∨ operator = "$unset") (h : operand.isObject = true) :
    ofOperator operator operand = .ok (listing [(operator, operand)]) := by
  cases operand with
  | object fields => rcases known with rfl | rfl <;> simp [ofOperator, listing, ofField]
  | _ => simp [Value.isObject] at h

theorem acceptable_of_ofOperator {operator : String} {operand : Value} {edits : List Edit}
    (h : ofOperator operator operand = .ok edits) :
    (operator = "$set" ∨ operator = "$unset") ∧ operand.isObject = true := by
  unfold ofOperator at h
  split at h
  · simp at h
  · rename_i known
    have known' : operator = "$set" ∨ operator = "$unset" := by
      by_contra other
      exact known (not_or.1 other)
    cases operand with
    | object fields => exact ⟨known', rfl⟩
    | _ => simp at h

theorem ofOperators_eq_ok_iff (update : Document) (edits : List Edit) :
    ofOperators update = .ok edits ↔ Acceptable update ∧ edits = listing update := by
  induction update generalizing edits with
  | nil =>
    have none : Acceptable [] := fun m hm => absurd hm List.not_mem_nil
    simp only [ofOperators, Except.ok.injEq, none, true_and, listing, List.flatMap_nil]
    exact eq_comm
  | cons m rest ih =>
    obtain ⟨operator, operand⟩ := m
    have parts : listing ((operator, operand) :: rest) = listing [(operator, operand)] ++ listing rest := by
      simp [listing]
    rw [ofOperators, acceptable_cons_iff, parts]
    constructor
    · intro h
      obtain ⟨first, hf, h⟩ := bind_eq_ok_iff.1 h
      obtain ⟨more, hm, h⟩ := bind_eq_ok_iff.1 h
      have known := acceptable_of_ofOperator hf
      obtain ⟨acceptable, rfl⟩ := (ih more).1 hm
      rw [ofOperator_of_acceptable known.1 known.2] at hf
      cases hf
      cases h
      exact ⟨⟨known, acceptable⟩, rfl⟩
    · rintro ⟨⟨known, acceptable⟩, rfl⟩
      refine bind_eq_ok_iff.2 ⟨_, ofOperator_of_acceptable known.1 known.2, ?_⟩
      exact bind_eq_ok_iff.2 ⟨_, (ih _).2 ⟨acceptable, rfl⟩, rfl⟩

theorem ofUpdate_eq_ok_iff (update : Document) (edits : List Edit) :
    ofUpdate update = .ok edits ↔ Acceptable update ∧ edits = listing update := by
  unfold ofUpdate
  split
  · rename_i h
    obtain ⟨key, hk, other⟩ := List.any_eq_true.1 h
    obtain ⟨m, hm, rfl⟩ := List.mem_map.1 hk
    simp only [reduceCtorEq, false_iff]
    rintro ⟨acceptable, -⟩
    rcases (acceptable m hm).1 with e | e <;> simp [e, isOperator] at other
  · exact ofOperators_eq_ok_iff update edits

theorem ofUpdate_of_not_acceptable {update : Document} (h : ¬ Acceptable update) :
    ∃ fault, ofUpdate update = .error fault := by
  rcases ok_or_fails (ofUpdate update) with ⟨edits, e⟩ | fails
  · exact absurd ((ofUpdate_eq_ok_iff update edits).1 e).1 h
  · exact fails

theorem isWellKeyed_of_mem_listing {update : Document} (keyed : update.isWellKeyed = true) {e : Edit}
    (h : e ∈ listing update) : e.isWellKeyed = true := by
  obtain ⟨m, hm, h⟩ := List.mem_flatMap.1 h
  have operand := ((Document.isWellKeyed_iff update).1 keyed).2 m hm
  split at h
  · rename_i fields hf
    obtain ⟨field, hfield, rfl⟩ := List.mem_map.1 h
    rw [hf] at operand
    have value := ((Document.isWellKeyed_iff fields).1 operand).2 field hfield
    unfold ofField
    split
    · exact value
    · rfl
  · simp at h

/-! ## One edit -/

/-- A document already is as an edit wants it. -/
def Settled (d : Document) : Edit → Prop
  | .set path value => ∃ v, d.at? (pathKeys path) = some v ∧ v.same value = true
  | .unset path => d.at? (pathKeys path) = none

theorem settled_of_at?_eq {d e : Document} {edit : Edit} (h : d.at? (pathKeys edit.path) = e.at? (pathKeys edit.path))
    (settled : Settled d edit) : Settled e edit := by
  cases edit with
  | set path value =>
    obtain ⟨v, found, hv⟩ := settled
    exact ⟨v, h ▸ found, hv⟩
  | unset path => exact h.symm.trans settled

theorem settled_of_same {d e : Document} {edit : Edit} (hd : d.isWellKeyed = true) (he : e.isWellKeyed = true)
    (hv : edit.isWellKeyed = true) (h : (Value.object d).same (.object e) = true) (settled : Settled e edit) :
    Settled d edit := by
  have agree : Agree (d.at? (pathKeys edit.path)) (e.at? (pathKeys edit.path)) := Document.agree_at?_of_same hd he h
  cases edit with
  | set path value =>
    obtain ⟨w, found, hw⟩ := settled
    cases there : d.at? (pathKeys path) with
    | none =>
      have gone : e.at? (pathKeys path) = none := agree.none_iff.1 there
      rw [found] at gone
      cases gone
    | some v =>
      have keyedV := Document.isWellKeyed_at? hd there
      have keyedW := Document.isWellKeyed_at? he found
      exact ⟨v, there, Value.same_trans keyedV keyedW hv (agree.same there found) hw⟩
  | unset path => exact agree.none_iff.2 settled

theorem apply_set (d : Document) (path : String) (value : Value) :
    apply d (.set path value) =
      match d.setAt value (pathKeys path) with
      | .ok after => .ok (after, match d.at? (pathKeys path) with
        | some old => !old.same value
        | none => true)
      | .error part => .error (.notADocument (((pathKeys path).getLast?).getD "") part path) :=
  Document.setPath_eq path value d

theorem apply_unset (d : Document) (path : String) :
    apply d (.unset path) = .ok (d.unsetAt (pathKeys path), (d.at? (pathKeys path)).isSome) :=
  congrArg Except.ok (Document.unsetPath_eq path d)

theorem apply_set_eq_ok_iff {d after : Document} {path : String} {value : Value} {changed : Bool} :
    apply d (.set path value) = .ok (after, changed) ↔
      d.setAt value (pathKeys path) = .ok after ∧
        changed = match d.at? (pathKeys path) with
          | some old => !old.same value
          | none => true := by
  rw [apply_set]
  cases d.setAt value (pathKeys path) with
  | error part => simp
  | ok written =>
    simp only [Except.ok.injEq, Prod.mk.injEq]
    exact and_congr Iff.rfl eq_comm

theorem apply_unset_eq_ok_iff {d after : Document} {path : String} {changed : Bool} :
    apply d (.unset path) = .ok (after, changed) ↔
      after = d.unsetAt (pathKeys path) ∧ changed = (d.at? (pathKeys path)).isSome := by
  simp [apply_unset, eq_comm]

theorem apply_fails_iff (d : Document) (edit : Edit) :
    (∃ fault, apply d edit = .error fault) ↔
      ∃ path value, edit = .set path value ∧ d.Blocked (pathKeys path) := by
  cases edit with
  | unset path => simp [apply_unset]
  | set path value =>
    have blocked : (∃ fault, apply d (.set path value) = .error fault) ↔
        ∃ part, d.setAt value (pathKeys path) = .error part := by
      rw [apply_set]
      cases d.setAt value (pathKeys path) <;> simp
    rw [blocked, Document.setAt_fails_iff]
    constructor
    · exact fun h => ⟨path, value, rfl, h⟩
    · rintro ⟨_, _, e, h⟩
      cases e
      exact h

/-- Only a part that is no document makes an edit fail. -/
theorem exists_notADocument_of_apply {d : Document} {edit : Edit} {fault : StoreFault}
    (h : apply d edit = .error fault) : ∃ field part path, fault = .notADocument field part path := by
  cases edit with
  | set path value =>
    rw [apply_set] at h
    split at h
    · cases h
    · cases h
      exact ⟨_, _, _, rfl⟩
  | unset path => cases h

section Apply

variable {d after : Document} {edit : Edit} {changed : Bool}

theorem isWellKeyed_apply (keyed : d.isWellKeyed = true) (hv : edit.isWellKeyed = true)
    (h : apply d edit = .ok (after, changed)) : after.isWellKeyed = true := by
  cases edit with
  | set path value => exact Document.isWellKeyed_setAt keyed hv (apply_set_eq_ok_iff.1 h).1
  | unset path =>
    obtain ⟨rfl, -⟩ := apply_unset_eq_ok_iff.1 h
    exact Document.isWellKeyed_unsetAt _ keyed

theorem settled_apply (keyed : d.isWellKeyed = true) (hv : edit.isWellKeyed = true)
    (h : apply d edit = .ok (after, changed)) : Settled after edit := by
  cases edit with
  | set path value =>
    have written := (apply_set_eq_ok_iff.1 h).1
    exact ⟨value, Document.at?_setAt_self (pathKeys_ne_nil path) written, Value.same_refl hv⟩
  | unset path =>
    obtain ⟨rfl, -⟩ := apply_unset_eq_ok_iff.1 h
    exact Document.at?_unsetAt_self _ keyed

theorem changed_iff_of_apply (h : apply d edit = .ok (after, changed)) :
    changed = true ↔ ¬ Settled d edit := by
  cases edit with
  | set path value =>
    rw [(apply_set_eq_ok_iff.1 h).2]
    show _ ↔ ¬ ∃ v, d.at? (pathKeys path) = some v ∧ v.same value = true
    cases d.at? (pathKeys path) <;> simp
  | unset path =>
    rw [(apply_unset_eq_ok_iff.1 h).2]
    exact Option.isSome_iff_ne_none

theorem same_apply_of_unchanged (keyed : d.isWellKeyed = true) (h : apply d edit = .ok (after, false)) :
    (Value.object d).same (.object after) = true := by
  have settled : Settled d edit := by simpa using changed_iff_of_apply h
  cases edit with
  | set path value =>
    obtain ⟨old, found, hold⟩ := settled
    exact Document.same_setAt keyed found hold (apply_set_eq_ok_iff.1 h).1
  | unset path =>
    obtain ⟨rfl, -⟩ := apply_unset_eq_ok_iff.1 h
    rw [Document.unsetAt_of_absent settled]
    exact Value.same_refl keyed

theorem freer_apply {e : Document} (free : Document.Freer e d) (hd : d.isWellKeyed = true)
    (he : e.isWellKeyed = true) (h : apply d edit = .ok (after, changed)) :
    ∃ after' changed', apply e edit = .ok (after', changed') ∧ Document.Freer after' after := by
  cases edit with
  | set path value =>
    obtain ⟨after', written, free'⟩ := Document.freer_setAt free (pathKeys_ne_nil path) (apply_set_eq_ok_iff.1 h).1
    exact ⟨after', _, apply_set_eq_ok_iff.2 ⟨written, rfl⟩, free'⟩
  | unset path =>
    obtain ⟨rfl, -⟩ := apply_unset_eq_ok_iff.1 h
    have free' := Document.freer_unsetAt free (pathKeys path) (pathKeys_ne_nil path) he hd
    exact ⟨_, _, apply_unset_eq_ok_iff.2 ⟨rfl, rfl⟩, free'⟩

theorem at?_apply_of_apart (keyed : d.isWellKeyed = true) {place : List String} (apart : Apart (pathKeys edit.path) place)
    (h : apply d edit = .ok (after, changed)) : after.at? place = d.at? place := by
  cases edit with
  | set path value => exact Document.at?_setAt_of_apart apart (apply_set_eq_ok_iff.1 h).1
  | unset path =>
    obtain ⟨rfl, -⟩ := apply_unset_eq_ok_iff.1 h
    exact Document.at?_unsetAt_of_apart apart keyed

end Apply

/-! ## Runs of edits -/

theorem applyAll_cons_eq_ok_iff {edit : Edit} {rest : List Edit} {d after : Document} {changed : Bool} :
    applyAll (edit :: rest) d = .ok (after, changed) ↔
      ∃ middle first more, apply d edit = .ok (middle, first) ∧ applyAll rest middle = .ok (after, more) ∧
        changed = (first || more) := by
  rw [applyAll, bind_eq_ok_iff]
  constructor
  · rintro ⟨⟨middle, first⟩, h, k⟩
    obtain ⟨⟨last, more⟩, hm, e⟩ := bind_eq_ok_iff.1 k
    cases e
    exact ⟨middle, first, more, h, hm, rfl⟩
  · rintro ⟨middle, first, more, h, hm, rfl⟩
    exact ⟨(middle, first), h, bind_eq_ok_iff.2 ⟨(after, more), hm, rfl⟩⟩

theorem applyAll_cons_fails_iff {edit : Edit} {rest : List Edit} {d : Document} :
    (∃ fault, applyAll (edit :: rest) d = .error fault) ↔
      (∃ fault, apply d edit = .error fault) ∨
        ∃ middle changed, apply d edit = .ok (middle, changed) ∧ ∃ fault, applyAll rest middle = .error fault := by
  rw [applyAll, bind_fails_iff]
  simp only [bind_fails_iff, Prod.exists, pure, Except.pure, reduceCtorEq, exists_false, and_false, or_false]

/-- The edits in order come to one that sets a path below a value that is no document, in the copy as edited so
far. -/
def MeetsObstacle (edits : List Edit) (d : Document) : Prop :=
  ∃ before path value rest, edits = before ++ .set path value :: rest ∧
    ∃ copy changed, applyAll before d = .ok (copy, changed) ∧
      ∃ lead v, DottedPrefix lead path ∧ copy.at? (pathKeys lead) = some v ∧ v.isObject = false

theorem blocked_iff (path : String) (d : Document) :
    d.Blocked (pathKeys path) ↔
      ∃ lead v, DottedPrefix lead path ∧ d.at? (pathKeys lead) = some v ∧ v.isObject = false := by
  constructor
  · rintro ⟨keys, v, h, ne, found, hv⟩
    have nonempty : keys ≠ [] := Document.ne_nil_of_at? found
    obtain ⟨lead, dotted, rfl⟩ := exists_dottedPrefix nonempty h ne
    exact ⟨lead, v, dotted, found, hv⟩
  · rintro ⟨lead, v, dotted, found, hv⟩
    obtain ⟨h, ne⟩ := (dottedPrefix_iff lead path).1 dotted
    exact ⟨pathKeys lead, v, h, fun e => ne (pathKeys_injective e), found, hv⟩

theorem applyAll_fails_iff (edits : List Edit) (d : Document) :
    (∃ fault, applyAll edits d = .error fault) ↔ MeetsObstacle edits d := by
  induction edits generalizing d with
  | nil => simp [applyAll, MeetsObstacle]
  | cons edit rest ih =>
    rw [applyAll_cons_fails_iff, apply_fails_iff]
    constructor
    · rintro (⟨path, value, rfl, blocked⟩ | ⟨middle, changed, h, fails⟩)
      · exact ⟨[], path, value, rest, rfl, d, false, rfl, (blocked_iff path d).1 blocked⟩
      · obtain ⟨before, path, value, more, rfl, copy, changed', hc, obstacle⟩ := (ih middle).1 fails
        exact ⟨edit :: before, path, value, more, rfl, copy, changed || changed',
          applyAll_cons_eq_ok_iff.2 ⟨middle, changed, changed', h, hc, rfl⟩, obstacle⟩
    · rintro ⟨before, path, value, more, e, copy, changed, hc, obstacle⟩
      cases before with
      | nil =>
        simp only [applyAll, Except.ok.injEq, Prod.mk.injEq] at hc
        obtain ⟨rfl, -⟩ := hc
        simp only [List.nil_append, List.cons.injEq] at e
        obtain ⟨rfl, rfl⟩ := e
        exact Or.inl ⟨path, value, rfl, (blocked_iff path d).2 obstacle⟩
      | cons other before =>
        simp only [List.cons_append, List.cons.injEq] at e
        obtain ⟨rfl, rfl⟩ := e
        obtain ⟨middle, first, later, h, hm, -⟩ := applyAll_cons_eq_ok_iff.1 hc
        exact Or.inr ⟨middle, first, h, (ih middle).2 ⟨before, path, value, more, rfl, copy, later, hm, obstacle⟩⟩

theorem exists_notADocument_of_applyAll {edits : List Edit} {d : Document} {fault : StoreFault}
    (h : applyAll edits d = .error fault) : ∃ field part path, fault = .notADocument field part path := by
  induction edits generalizing d with
  | nil => cases h
  | cons edit rest ih =>
    rw [applyAll, bind_eq_error_iff] at h
    rcases h with first | ⟨⟨middle, changed⟩, -, h⟩
    · exact exists_notADocument_of_apply first
    · rcases bind_eq_error_iff.1 h with later | ⟨_, -, none⟩
      · exact ih later
      · cases none

section ApplyAll

variable {edits : List Edit} {d after : Document} {changed : Bool}

theorem isWellKeyed_applyAll (keyed : d.isWellKeyed = true) (hv : ∀ e ∈ edits, e.isWellKeyed = true)
    (h : applyAll edits d = .ok (after, changed)) : after.isWellKeyed = true := by
  induction edits generalizing d changed with
  | nil =>
    simp only [applyAll, Except.ok.injEq, Prod.mk.injEq] at h
    exact h.1 ▸ keyed
  | cons edit rest ih =>
    obtain ⟨middle, first, more, hf, hm, -⟩ := applyAll_cons_eq_ok_iff.1 h
    have keyed' := isWellKeyed_apply keyed (hv edit List.mem_cons_self) hf
    exact ih keyed' (fun e he => hv e (List.mem_cons_of_mem _ he)) hm

theorem at?_applyAll_of_apart (keyed : d.isWellKeyed = true) (hv : ∀ e ∈ edits, e.isWellKeyed = true)
    {place : List String} (apart : ∀ e ∈ edits, Apart (pathKeys e.path) place)
    (h : applyAll edits d = .ok (after, changed)) : after.at? place = d.at? place := by
  induction edits generalizing d changed with
  | nil =>
    simp only [applyAll, Except.ok.injEq, Prod.mk.injEq] at h
    rw [h.1]
  | cons edit rest ih =>
    obtain ⟨middle, first, more, hf, hm, -⟩ := applyAll_cons_eq_ok_iff.1 h
    have keyed' := isWellKeyed_apply keyed (hv edit List.mem_cons_self) hf
    calc
      after.at? place = middle.at? place :=
        ih keyed' (fun e he => hv e (List.mem_cons_of_mem _ he)) (fun e he => apart e (List.mem_cons_of_mem _ he)) hm
      _ = d.at? place := at?_apply_of_apart keyed (apart edit List.mem_cons_self) hf

theorem at?_applyAll_of_incomparable (keyed : d.isWellKeyed = true) (hv : ∀ e ∈ edits, e.isWellKeyed = true)
    {other : String} (apart : ∀ e ∈ edits, Incomparable e.path other)
    (h : applyAll edits d = .ok (after, changed)) : after.at? (pathKeys other) = d.at? (pathKeys other) :=
  at?_applyAll_of_apart keyed hv (fun e he => (incomparable_iff e.path other).1 (apart e he)) h

/-- An edit that no later one disturbs is settled in the end. -/
theorem settled_applyAll_of_last {before rest : List Edit} {edit : Edit} (keyed : d.isWellKeyed = true)
    (hv : ∀ e ∈ before ++ edit :: rest, e.isWellKeyed = true)
    (apart : ∀ e ∈ rest, Incomparable e.path edit.path)
    (h : applyAll (before ++ edit :: rest) d = .ok (after, changed)) : Settled after edit := by
  induction before generalizing d changed with
  | nil =>
    obtain ⟨middle, first, more, hf, hm, -⟩ := applyAll_cons_eq_ok_iff.1 h
    have hedit := hv edit List.mem_cons_self
    have keyed' := isWellKeyed_apply keyed hedit hf
    have kept := at?_applyAll_of_incomparable keyed' (fun e he => hv e (List.mem_cons_of_mem _ he)) apart hm
    exact settled_of_at?_eq kept.symm (settled_apply keyed hedit hf)
  | cons first before ih =>
    obtain ⟨middle, changed', more, hf, hm, -⟩ := applyAll_cons_eq_ok_iff.1 h
    have keyed' := isWellKeyed_apply keyed (hv first List.mem_cons_self) hf
    exact ih keyed' (fun e he => hv e (List.mem_cons_of_mem _ he)) hm

theorem settled_applyAll (keyed : d.isWellKeyed = true) (hv : ∀ e ∈ edits, e.isWellKeyed = true)
    (apart : edits.Pairwise fun e f => Incomparable e.path f.path) (h : applyAll edits d = .ok (after, changed)) :
    ∀ e ∈ edits, Settled after e := by
  intro e he
  obtain ⟨before, rest, rfl⟩ := List.append_of_mem he
  obtain ⟨-, later, -⟩ := List.pairwise_append.1 apart
  have away := (List.pairwise_cons.1 later).1
  exact settled_applyAll_of_last keyed hv (fun f hf => (away f hf).symm) h

theorem same_applyAll_of_unchanged (keyed : d.isWellKeyed = true) (hv : ∀ e ∈ edits, e.isWellKeyed = true)
    (h : applyAll edits d = .ok (after, false)) : (Value.object d).same (.object after) = true := by
  induction edits generalizing d with
  | nil =>
    simp only [applyAll, Except.ok.injEq, Prod.mk.injEq] at h
    rw [← h.1]
    exact Value.same_refl keyed
  | cons edit rest ih =>
    obtain ⟨middle, first, more, hf, hm, unchanged⟩ := applyAll_cons_eq_ok_iff.1 h
    obtain ⟨rfl, rfl⟩ := Bool.or_eq_false_iff.1 unchanged.symm
    have hv' : ∀ e ∈ rest, e.isWellKeyed = true := fun e he => hv e (List.mem_cons_of_mem _ he)
    have keyed' := isWellKeyed_apply keyed (hv edit List.mem_cons_self) hf
    have keyed'' := isWellKeyed_applyAll keyed' hv' hm
    exact Value.same_trans keyed keyed' keyed'' (same_apply_of_unchanged keyed hf) (ih keyed' hv' hm)

theorem applyAll_of_freer {e : Document} (free : Document.Freer e d) (hd : d.isWellKeyed = true)
    (he : e.isWellKeyed = true) (hv : ∀ e ∈ edits, e.isWellKeyed = true)
    (h : applyAll edits d = .ok (after, changed)) : ∃ r, applyAll edits e = .ok r := by
  induction edits generalizing d e changed with
  | nil => exact ⟨_, rfl⟩
  | cons edit rest ih =>
    obtain ⟨middle, first, more, hf, hm, -⟩ := applyAll_cons_eq_ok_iff.1 h
    obtain ⟨middle', first', hf', free'⟩ := freer_apply free hd he hf
    have hedit := hv edit List.mem_cons_self
    obtain ⟨⟨last, more'⟩, hl⟩ := ih free' (isWellKeyed_apply hd hedit hf) (isWellKeyed_apply he hedit hf')
      (fun e he => hv e (List.mem_cons_of_mem _ he)) hm
    exact ⟨_, applyAll_cons_eq_ok_iff.2 ⟨middle', first', more', hf', hl, rfl⟩⟩

end ApplyAll

end BucketBench.Edit
