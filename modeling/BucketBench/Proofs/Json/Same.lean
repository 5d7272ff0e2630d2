import BucketBench.Proofs.Json.WellKeyed
import Mathlib.Data.List.Perm.Subperm

set_option autoImplicit false

namespace BucketBench

abbrev Agree : Option Value → Option Value → Prop := Option.Rel fun v w => v.same w = true

theorem agree_of_forall {a b : Option Value} (hn : a = none ↔ b = none)
    (h : ∀ v w, a = some v → b = some w → v.same w = true) : Agree a b := by
  cases a with
  | none =>
    rw [hn.1 rfl]
    exact Option.Rel.none
  | some v =>
    cases b with
    | none => exact absurd (hn.2 rfl) (Option.some_ne_none v)
    | some w => exact Option.Rel.some (h v w rfl rfl)

theorem Agree.none_iff {a b : Option Value} (h : Agree a b) : a = none ↔ b = none := by
  cases h <;> simp

theorem Agree.exists_some {a b : Option Value} {v : Value} (h : Agree a b) (hv : a = some v) : ∃ w, b = some w := by
  subst hv
  cases h with
  | some _ => exact ⟨_, rfl⟩

theorem Agree.same {a b : Option Value} {v w : Value} (h : Agree a b) (hv : a = some v) (hw : b = some w) :
    v.same w = true := by
  subst hv hw
  cases h with
  | some same => exact same

namespace Value

theorem sameMembers_iff (members other : Document) :
    sameMembers members other = true ↔
      ∀ m ∈ members, ∃ w, Document.get? m.1 other = some w ∧ m.2.same w = true := by
  induction members with
  | nil => simp [sameMembers]
  | cons m rest ih =>
    obtain ⟨k, v⟩ := m
    simp only [sameMembers, Bool.and_eq_true, ih, List.mem_cons, forall_eq_or_imp]
    cases Document.get? k other with
    | none => simp
    | some w => simp

theorem keys_subset_of_sameMembers {d e : Document} (h : sameMembers d e = true) : d.keys ⊆ e.keys := by
  intro key hk
  obtain ⟨m, hm, rfl⟩ := List.mem_map.1 hk
  obtain ⟨w, found, -⟩ := (sameMembers_iff d e).1 h m hm
  exact Document.mem_keys_of_mem (m := (m.1, w)) (Document.mem_of_get? found)

theorem same_object_iff {d e : Document} (hd : d.keys.Nodup) (he : e.keys.Nodup) :
    (object d).same (object e) = true ↔ ∀ key, Agree (d.get? key) (e.get? key) := by
  have unfolded : (object d).same (object e) = true ↔ d.length = e.length ∧ sameMembers d e = true := by
    simp [same]
  rw [unfolded]
  constructor
  · rintro ⟨length, members⟩ key
    have covered := keys_subset_of_sameMembers members
    have perm : d.keys.Perm e.keys :=
      (List.subperm_of_subset hd covered).perm_of_length_le (by simp [Document.keys, length])
    refine agree_of_forall ?_ ?_
    · rw [Document.get?_eq_none_iff, Document.get?_eq_none_iff, perm.mem_iff]
    · intro v w hv hw
      obtain ⟨u, found, same⟩ := (sameMembers_iff d e).1 members (key, v) (Document.mem_of_get? hv)
      have e : w = u := Option.some.inj (hw.symm.trans found)
      exact e ▸ same
  · intro agree
    have members : sameMembers d e = true := by
      refine (sameMembers_iff d e).2 fun m hm => ?_
      have found := Document.get?_of_mem hd hm
      obtain ⟨w, hw⟩ := (agree m.1).exists_some found
      exact ⟨w, hw, (agree m.1).same found hw⟩
    have fewer : e.keys ⊆ d.keys := by
      intro key hk
      by_contra absent
      have gone := (agree key).none_iff.1 ((Document.get?_eq_none_iff key d).2 absent)
      exact (Document.get?_eq_none_iff key e).1 gone hk
    have lengths : d.keys.length = e.keys.length :=
      Nat.le_antisymm (List.subperm_of_subset hd (keys_subset_of_sameMembers members)).length_le
        (List.subperm_of_subset he fewer).length_le
    exact ⟨by simpa [Document.keys] using lengths, members⟩

theorem sameItems_refl {items : List Value} (h : ∀ v ∈ items, v.same v = true) : sameItems items items = true := by
  induction items with
  | nil => rfl
  | cons v rest ih =>
    simp only [sameItems, Bool.and_eq_true]
    exact ⟨h v List.mem_cons_self, ih fun w hw => h w (List.mem_cons_of_mem _ hw)⟩

theorem same_refl {v : Value} (keyed : v.isWellKeyed = true) : v.same v = true := by
  induction v using Value.induct with
  | null => rfl
  | bool b => simp [same]
  | int n => simp [same]
  | double x => simpa [same] using x.same_refl
  | string s => simp [same]
  | array items ih =>
    have each := (areWellKeyed_iff items).1 keyed
    simpa [same] using sameItems_refl fun v hv => ih v hv (each v hv)
  | object members ih =>
    obtain ⟨nodup, each⟩ := (Document.isWellKeyed_iff members).1 keyed
    rw [same_object_iff nodup nodup]
    refine fun key => agree_of_forall Iff.rfl ?_
    intro v w hv hw
    have mem := Document.mem_of_get? hv
    have e : v = w := Option.some.inj (hv.symm.trans hw)
    exact e ▸ ih (key, v) mem (each (key, v) mem)

theorem sameItems_symm {a b : List Value} (symm : ∀ v ∈ a, ∀ w ∈ b, v.same w = true → w.same v = true)
    (h : sameItems a b = true) : sameItems b a = true := by
  induction a generalizing b with
  | nil => cases b <;> simp_all [sameItems]
  | cons v rest ih =>
    cases b with
    | nil => simp [sameItems] at h
    | cons w more =>
      simp only [sameItems, Bool.and_eq_true] at h ⊢
      refine ⟨symm v List.mem_cons_self w List.mem_cons_self h.1, ih ?_ h.2⟩
      intro x hx y hy
      exact symm x (List.mem_cons_of_mem _ hx) y (List.mem_cons_of_mem _ hy)

theorem same_symm {v w : Value} (hv : v.isWellKeyed = true) (hw : w.isWellKeyed = true) (h : v.same w = true) :
    w.same v = true := by
  induction v using Value.induct generalizing w with
  | double x =>
    cases w with
    | double y => simpa only [same, Double.same_comm y x] using h
    | _ => simp [same] at h
  | array items ih =>
    cases w with
    | array others =>
      simp only [same] at h ⊢
      have each := (areWellKeyed_iff items).1 hv
      have each' := (areWellKeyed_iff others).1 hw
      exact sameItems_symm (fun x hx y hy => ih x hx (each x hx) (each' y hy)) h
    | _ => simp [same] at h
  | object members ih =>
    cases w with
    | object others =>
      obtain ⟨nodup, each⟩ := (Document.isWellKeyed_iff members).1 hv
      obtain ⟨nodup', each'⟩ := (Document.isWellKeyed_iff others).1 hw
      rw [same_object_iff nodup nodup'] at h
      rw [same_object_iff nodup' nodup]
      refine fun key => agree_of_forall (h key).none_iff.symm ?_
      intro y x hy hx
      have mx := Document.mem_of_get? hx
      exact ih (key, x) mx (each _ mx) (each' _ (Document.mem_of_get? hy)) ((h key).same hx hy)
    | _ => simp [same] at h
  | _ => cases w <;> simp_all [same]

theorem sameItems_trans {a b c : List Value}
    (trans : ∀ v ∈ a, ∀ w ∈ b, ∀ u ∈ c, v.same w = true → w.same u = true → v.same u = true)
    (h : sameItems a b = true) (k : sameItems b c = true) : sameItems a c = true := by
  induction a generalizing b c with
  | nil =>
    cases b with
    | nil => exact k
    | cons w more => simp [sameItems] at h
  | cons v rest ih =>
    cases b with
    | nil => simp [sameItems] at h
    | cons w more =>
      cases c with
      | nil => simp [sameItems] at k
      | cons u others =>
        simp only [sameItems, Bool.and_eq_true] at h k ⊢
        refine ⟨trans v List.mem_cons_self w List.mem_cons_self u List.mem_cons_self h.1 k.1, ih ?_ h.2 k.2⟩
        intro x hx y hy z hz
        exact trans x (List.mem_cons_of_mem _ hx) y (List.mem_cons_of_mem _ hy) z (List.mem_cons_of_mem _ hz)

theorem same_trans {v w u : Value} (hv : v.isWellKeyed = true) (hw : w.isWellKeyed = true)
    (hu : u.isWellKeyed = true) (h : v.same w = true) (k : w.same u = true) : v.same u = true := by
  induction v using Value.induct generalizing w u with
  | double x =>
    cases w with
    | double y =>
      cases u with
      | double z => exact Double.same_trans h k
      | _ => simp [same] at k
    | _ => simp [same] at h
  | array items ih =>
    cases w with
    | array others =>
      cases u with
      | array more =>
        simp only [same] at h k ⊢
        have each := (areWellKeyed_iff items).1 hv
        have each' := (areWellKeyed_iff others).1 hw
        have each'' := (areWellKeyed_iff more).1 hu
        exact sameItems_trans (fun x hx y hy z hz => ih x hx (each x hx) (each' y hy) (each'' z hz)) h k
      | _ => simp [same] at k
    | _ => simp [same] at h
  | object members ih =>
    cases w with
    | object others =>
      cases u with
      | object more =>
        obtain ⟨nodup, each⟩ := (Document.isWellKeyed_iff members).1 hv
        obtain ⟨nodup', each'⟩ := (Document.isWellKeyed_iff others).1 hw
        obtain ⟨nodup'', each''⟩ := (Document.isWellKeyed_iff more).1 hu
        rw [same_object_iff nodup nodup'] at h
        rw [same_object_iff nodup' nodup''] at k
        rw [same_object_iff nodup nodup'']
        refine fun key => agree_of_forall ((h key).none_iff.trans (k key).none_iff) ?_
        intro x z hx hz
        obtain ⟨y, hy⟩ := (h key).exists_some hx
        have mx := Document.mem_of_get? hx
        have my := Document.mem_of_get? hy
        have mz := Document.mem_of_get? hz
        exact ih (key, x) mx (each _ mx) (each' _ my) (each'' _ mz) ((h key).same hx hy) ((k key).same hy hz)
      | _ => simp [same] at k
    | _ => simp [same] at h
  | _ => cases w <;> cases u <;> simp_all [same]

theorem isArray_of_same {v w : Value} (h : v.same w = true) : v.isArray = w.isArray := by
  cases v <;> cases w <;> simp_all [same, isArray]

end Value

end BucketBench
