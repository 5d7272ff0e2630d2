import BucketBench.Proofs.Store.Distinct

set_option autoImplicit false

namespace BucketBench

def isPlainKey (key : String) : Bool := !Wire.hasNul key && !Edit.isOperator key

mutual

def Value.isPlain : Value → Bool
  | .int n => decide (n ∈ IntRange.int64)
  | .array items => Value.arePlain items
  | .object members => Document.holdsPlain members
  | _ => true

def Value.arePlain : List Value → Bool
  | [] => true
  | v :: rest => v.isPlain && Value.arePlain rest

def Document.holdsPlain : Document → Bool
  | [] => true
  | (k, v) :: rest => isPlainKey k && v.isPlain && Document.holdsPlain rest

end

theorem Value.arePlain_iff (items : List Value) : Value.arePlain items = true ↔ ∀ v ∈ items, v.isPlain = true := by
  induction items with
  | nil => simp [Value.arePlain]
  | cons v rest ih => simp only [Value.arePlain, Bool.and_eq_true, ih, List.mem_cons, forall_eq_or_imp]

namespace Document

def isPlain (d : Document) : Bool := (Value.object d).isPlain

theorem isPlain_iff (d : Document) :
    d.isPlain = true ↔ ∀ m ∈ d, isPlainKey m.1 = true ∧ m.2.isPlain = true := by
  rw [isPlain, Value.isPlain]
  induction d with
  | nil => simp [holdsPlain]
  | cons m rest ih =>
    obtain ⟨k, v⟩ := m
    simp only [holdsPlain, Bool.and_eq_true, ih, List.mem_cons, forall_eq_or_imp]

end Document

/-! ## Over the wire -/

namespace Wire

/-- Only an object with a single member spells a database value, and its key is no operator of an update. -/
theorem exists_key_of_spelled {d : Document} {v : Value} (h : spelled? d = some v) :
    ∃ key w, d = [(key, w)] ∧ Edit.isOperator key = true ∧ key ≠ "$set" ∧ key ≠ "$unset" := by
  unfold spelled? at h
  split at h <;> first | exact ⟨_, _, rfl, rfl, by decide, by decide⟩ | cases h

theorem spelled?_of_isPlain {d : Document} (plain : d.isPlain = true) : spelled? d = none := by
  cases h : spelled? d with
  | none => rfl
  | some v =>
    obtain ⟨key, w, rfl, operator, -⟩ := exists_key_of_spelled h
    have keyPlain := ((Document.isPlain_iff _).1 plain (key, w) List.mem_cons_self).1
    simp [isPlainKey, operator] at keyPlain

theorem items?_of_each {items : List Value} (each : ∀ v ∈ items, value? v = some v) : items? items = some items := by
  induction items with
  | nil => rfl
  | cons v rest ih =>
    have later := ih fun w hw => each w (List.mem_cons_of_mem _ hw)
    rw [items?, each v List.mem_cons_self, later]
    rfl

theorem members?_of_each {members : Document} (each : ∀ m ∈ members, hasNul m.1 = false ∧ value? m.2 = some m.2) :
    members? members = some members := by
  induction members with
  | nil => rfl
  | cons m rest ih =>
    obtain ⟨k, v⟩ := m
    obtain ⟨noNul, unchanged⟩ : hasNul k = false ∧ value? v = some v := each _ List.mem_cons_self
    have later := ih fun w hw => each w (List.mem_cons_of_mem _ hw)
    rw [members?, noNul, unchanged, later]
    rfl

theorem hasNul_of_isPlainKey {key : String} (h : isPlainKey key = true) : hasNul key = false := by
  simp only [isPlainKey, Bool.and_eq_true, Bool.not_eq_true'] at h
  exact h.1

theorem value?_of_isPlain {v : Value} (plain : v.isPlain = true) : value? v = some v := by
  induction v using Value.induct with
  | int n =>
    have small : n ∈ IntRange.int64 := of_decide_eq_true plain
    rw [value?, if_pos small.2]
  | array items ih =>
    have each := (Value.arePlain_iff items).1 plain
    rw [value?, items?_of_each fun v hv => ih v hv (each v hv)]
    rfl
  | object members ih =>
    have each := (Document.isPlain_iff members).1 plain
    have unchanged : members? members = some members :=
      members?_of_each fun m hm => ⟨hasNul_of_isPlainKey (each m hm).1, ih m hm (each m hm).2⟩
    rw [value?, unchanged, Option.map_some, spelled?_of_isPlain plain]
  | _ => rfl

theorem document?_of_isPlain {d : Document} (plain : d.isPlain = true) : document? d = some d := by
  have each := (Document.isPlain_iff d).1 plain
  have unchanged : members? d = some d :=
    members?_of_each fun m hm => ⟨hasNul_of_isPlainKey (each m hm).1, value?_of_isPlain (each m hm).2⟩
  rw [document?, unchanged]
  simp [spelled?_of_isPlain plain]

end Wire

/-! ## Documents that stay plain -/

theorem Text.mem_of_mem_pieces {separator c : Char} {s piece : List Char} (hp : piece ∈ pieces separator s)
    (hc : c ∈ piece) : c ∈ s := by
  induction s generalizing piece with
  | nil =>
    rw [pieces, List.mem_singleton] at hp
    rwa [hp] at hc
  | cons first rest ih =>
    obtain ⟨p, ps, e⟩ := List.exists_cons_of_ne_nil (pieces_ne_nil separator rest)
    rw [e] at ih
    by_cases h : first = separator
    · simp only [pieces, h, if_true, List.mem_cons, e] at hp
      rcases hp with rfl | hp
      · exact absurd hc List.not_mem_nil
      · exact List.mem_cons_of_mem _ (ih (List.mem_cons.2 hp) hc)
    · simp only [pieces, h, if_false, e, List.mem_cons] at hp
      rcases hp with rfl | hp
      · rcases List.mem_cons.1 hc with rfl | hc
        · exact List.mem_cons_self
        · exact List.mem_cons_of_mem _ (ih List.mem_cons_self hc)
      · exact List.mem_cons_of_mem _ (ih (List.mem_cons_of_mem _ hp) hc)

theorem hasNul_of_mem_pathKeys {path key : String} (h : Wire.hasNul path = false) (hk : key ∈ pathKeys path) :
    Wire.hasNul key = false := by
  obtain ⟨piece, hp, rfl⟩ := List.mem_map.1 hk
  rw [Wire.hasNul, List.any_eq_false] at h ⊢
  intro c hc
  rw [String.toList_ofList] at hc
  exact h c (Text.mem_of_mem_pieces hp hc)

namespace Document

variable {d after : Document} {value : Value} {key : String} {path : List String}

theorem isPlain_of_get? {v : Value} (plain : d.isPlain = true) (h : d.get? key = some v) : v.isPlain = true :=
  ((isPlain_iff d).1 plain _ (mem_of_get? h)).2

theorem isPlain_of_at? {v : Value} (plain : d.isPlain = true) (h : d.at? path = some v) : v.isPlain = true := by
  induction path generalizing d with
  | nil => simp [at?] at h
  | cons key rest ih =>
    cases rest with
    | nil => exact isPlain_of_get? plain h
    | cons next tail =>
      rw [at?_cons] at h
      split at h
      · rename_i inner found
        exact ih (isPlain_of_get? plain found) h
      · simp at h

theorem isPlain_insert (plain : d.isPlain = true) (hk : isPlainKey key = true) (hv : value.isPlain = true) :
    (d.insert key value).isPlain = true := by
  refine (isPlain_iff _).2 fun m hm => ?_
  rcases mem_insert hm with rfl | hm
  · exact ⟨hk, hv⟩
  · exact (isPlain_iff d).1 plain m hm

theorem isPlain_remove (key : String) (plain : d.isPlain = true) : (d.remove key).isPlain = true :=
  (isPlain_iff _).2 fun m hm => (isPlain_iff d).1 plain m (mem_of_mem_remove hm)

theorem isPlain_branch {inner : Document} (plain : d.isPlain = true) (h : d.branch key = some inner) :
    inner.isPlain = true := by
  unfold branch at h
  split at h
  · cases h
    rfl
  · rename_i found
    cases h
    exact isPlain_of_get? plain found
  · simp at h

theorem isPlain_setAt (plain : d.isPlain = true) (hk : ∀ key ∈ path, isPlainKey key = true)
    (hv : value.isPlain = true) (h : setAt value path d = .ok after) : after.isPlain = true := by
  induction path generalizing d after with
  | nil =>
    simp only [setAt, Except.ok.injEq] at h
    exact h ▸ plain
  | cons key rest ih =>
    have first : isPlainKey key = true := hk key List.mem_cons_self
    cases rest with
    | nil =>
      simp only [setAt, Except.ok.injEq] at h
      exact h ▸ isPlain_insert plain first hv
    | cons next tail =>
      obtain ⟨inner, written, hb, hw, rfl⟩ := exists_branch_of_setAt h
      exact isPlain_insert plain first (ih (isPlain_branch plain hb) (fun k hk' => hk k (List.mem_cons_of_mem _ hk')) hw)

theorem isPlain_unsetAt (path : List String) (plain : d.isPlain = true) : (unsetAt path d).isPlain = true := by
  induction path generalizing d with
  | nil => exact plain
  | cons key rest ih =>
    cases rest with
    | nil => exact isPlain_remove key plain
    | cons next tail =>
      rw [unsetAt_cons]
      split
      · rename_i inner found
        have member := (isPlain_iff d).1 plain _ (mem_of_get? found)
        exact isPlain_insert plain member.1 (ih member.2)
      · exact plain

end Document

namespace Edit

def IsPlain : Edit → Prop
  | .set path value => value.isPlain = true ∧ ∀ key ∈ pathKeys path, isPlainKey key = true
  | .unset _ => True

variable {d after : Document} {changed : Bool}

theorem isPlain_apply {edit : Edit} (plain : d.isPlain = true) (he : edit.IsPlain)
    (h : apply d edit = .ok (after, changed)) : after.isPlain = true := by
  cases edit with
  | set path value => exact Document.isPlain_setAt plain he.2 he.1 (apply_set_eq_ok_iff.1 h).1
  | unset path =>
    obtain ⟨rfl, -⟩ := apply_unset_eq_ok_iff.1 h
    exact Document.isPlain_unsetAt _ plain

theorem isPlain_applyAll {edits : List Edit} (plain : d.isPlain = true) (he : ∀ e ∈ edits, e.IsPlain)
    (h : applyAll edits d = .ok (after, changed)) : after.isPlain = true := by
  induction edits generalizing d changed with
  | nil =>
    simp only [applyAll, Except.ok.injEq, Prod.mk.injEq] at h
    exact h.1 ▸ plain
  | cons edit rest ih =>
    obtain ⟨middle, first, more, hf, hm, -⟩ := applyAll_cons_eq_ok_iff.1 h
    exact ih (isPlain_apply plain (he edit List.mem_cons_self) hf) (fun e h => he e (List.mem_cons_of_mem _ h)) hm

end Edit

namespace Collection

variable {filter : Document} {c : Collection}

/-- No stored document has a key with a NUL or a dollar sign in front, or a whole number beyond 64 bits. -/
def IsPlain (c : Collection) : Prop := ∀ d ∈ c.documents, d.isPlain = true

theorem isPlain_edited {edits : List Edit} {d : Document} (plain : d.isPlain = true) (he : ∀ e ∈ edits, e.IsPlain) :
    (edited filter edits d).isPlain = true := by
  unfold edited
  split
  · split
    · rename_i after h
      exact Edit.isPlain_applyAll plain he h
    · exact plain
  · exact plain

theorem isPlain_updateMany {update : Document} (plain : c.IsPlain) (he : ∀ e ∈ Edit.listing update, e.IsPlain) :
    ((updateMany filter update).run c).2.IsPlain := by
  rcases h : (updateMany filter update).run c with ⟨outcome, after⟩
  cases outcome with
  | error fault =>
    rw [eq_of_updateMany_eq_error h]
    exact plain
  | ok summary =>
    obtain ⟨-, -, rfl⟩ := of_updateMany_eq_ok h
    intro d hd
    obtain ⟨before, hb, rfl⟩ := List.mem_map.1 hd
    exact isPlain_edited (plain before hb) he

theorem isPlain_of_mem_distinct {path : String} {v : Value} (plain : c.IsPlain) (h : v ∈ c.distinct path filter) :
    v.isPlain = true := by
  obtain ⟨d, hd, found | ⟨items, found, inside⟩⟩ := exists_at?_of_mem_sights (mem_sights_of_mem_distinct h)
  · exact Document.isPlain_of_at? (plain d hd) found
  · exact (Value.arePlain_iff items).1 (Document.isPlain_of_at? (plain d hd) found) v inside

end Collection

end BucketBench
