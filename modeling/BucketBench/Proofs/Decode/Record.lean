import BucketBench.Decode.Record
import BucketBench.Proofs.Json.WellKeyed
import BucketBench.Proofs.Outcome

set_option autoImplicit false

/-!
# Records are read field by field

A record that has a written form of its own is read in layers: each of its members is what was read from the member
given under the same key, or what it was before when none is given. The order of the members given and the members that
no field knows make no difference.
-/

namespace BucketBench

namespace Document

/-- Documents with the same keys in the same order are equal when they agree under each key. -/
theorem eq_of_keys_eq {d e : Document} (same : d.keys = e.keys) (nodup : d.keys.Nodup)
    (agree : ∀ key ∈ d.keys, d.get? key = e.get? key) : d = e := by
  induction d generalizing e with
  | nil => exact (List.map_eq_nil_iff.1 same.symm).symm
  | cons m rest ih =>
    cases e with
    | nil => cases same
    | cons m' rest' =>
      obtain ⟨k, v⟩ := m
      obtain ⟨k', v'⟩ := m'
      obtain ⟨rfl, later⟩ : k = k' ∧ keys rest = keys rest' := List.cons.inj same
      obtain ⟨fresh, nodup⟩ : k ∉ keys rest ∧ (keys rest).Nodup := List.nodup_cons.1 nodup
      have first : v = v' := by simpa [get?_cons] using agree k List.mem_cons_self
      have others : ∀ key ∈ keys rest, get? key rest = get? key rest' := by
        intro key mem
        have ne : k ≠ key := fun e => fresh (e ▸ mem)
        simpa [get?_cons, ne] using agree key (List.mem_cons_of_mem _ mem)
      rw [first, ih later nodup others]

end Document

inductive Layered (reads : Value → Value → Prop) : Option Value → Option Value → Option Value → Prop
  | absent {before : Option Value} : Layered reads none before before
  | given {w v : Value} {before : Option Value} : reads w v → Layered reads (some w) before (some v)

theorem layered_none_iff {reads : Value → Value → Prop} {before after : Option Value} :
    Layered reads none before after ↔ after = before := by
  constructor
  · rintro ⟨⟩
    rfl
  · rintro rfl
    exact .absent

theorem layered_some_iff {reads : Value → Value → Prop} {w : Value} {before after : Option Value} :
    Layered reads (some w) before after ↔ ∃ v, reads w v ∧ after = some v := by
  constructor
  · rintro ⟨⟩
    exact ⟨_, ‹_›, rfl⟩
  · rintro ⟨v, h, rfl⟩
    exact .given h

/-- The first of some members settles its own key, and the others go on from what it left. -/
theorem forall_layered_cons_iff {reads : String → Value → Value → Prop} {keys : List String} {k : String} {w : Value}
    {rest base last : Document} (known : k ∈ keys) (gone : rest.get? k = none) :
    (∀ key ∈ keys, Layered (reads key) (Document.get? key ((k, w) :: rest)) (base.get? key) (last.get? key)) ↔
      ∃ v, reads k w v ∧
        ∀ key ∈ keys, Layered (reads key) (rest.get? key) ((base.insert k v).get? key) (last.get? key) := by
  constructor
  · intro layers
    have layer := layers k known
    rw [Document.get?_cons, if_pos rfl, layered_some_iff] at layer
    obtain ⟨v, hv, here⟩ := layer
    refine ⟨v, hv, fun key mem => ?_⟩
    rw [Document.get?_insert]
    split
    · rename_i same
      subst same
      rw [gone, layered_none_iff, here]
    · have layer := layers key mem
      rwa [Document.get?_cons, if_neg ‹_›] at layer
  · rintro ⟨v, hv, layers⟩ key mem
    have layer := layers key mem
    rw [Document.get?_insert] at layer
    rw [Document.get?_cons]
    split at layer
    · rename_i same
      subst same
      rw [gone, layered_none_iff] at layer
      rw [if_pos rfl, layer]
      exact .given hv
    · rwa [if_neg ‹_›]

/-- Reading into a field succeeds on the values that `reads` relates to one, writes that one at `key` and leaves every
other member alone. -/
structure Writes {α : Type} (written : α → Document) (key : String) (reads : Value → Value → Prop)
    (assign : Value → α → Except Mismatch α) : Prop where
  sound : ∀ {w record next}, assign w record = .ok next → ∃ v, reads w v ∧ written next = (written record).insert key v
  complete : ∀ {w v} record, reads w v → ∃ next, assign w record = .ok next ∧ written next = (written record).insert key v

theorem writes_of {α β : Type} {written : α → Document} {key : String} {reads : Value → Value → Prop}
    {decode : Decoder β} {shown : β → Value} (reading : ∀ w v, reads w v ↔ ∃ b, decode w = .ok b ∧ v = shown b)
    {put : β → α → α} (placed : ∀ b record, written (put b record) = (written record).insert key (shown b)) :
    Writes written key reads (fun w record => do return put (← decode w) record) where
  sound := by
    intro w record next h
    obtain ⟨b, hb, e⟩ := bind_eq_ok_iff.1 h
    cases e
    exact ⟨_, (reading w _).2 ⟨b, hb, rfl⟩, placed b record⟩
  complete := by
    intro w v record h
    obtain ⟨b, hb, rfl⟩ := (reading w v).1 h
    exact ⟨put b record, bind_eq_ok_iff.2 ⟨b, hb, rfl⟩, placed b record⟩

namespace RecordDecoder

variable {α : Type}

def keys (r : RecordDecoder α) : List String := r.fields.map (·.1)

structure Faithful (r : RecordDecoder α) (written : α → Document) (reads : String → Value → Value → Prop) : Prop where
  keys : ∀ record, (written record).keys = r.keys
  nodup : r.keys.Nodup
  injective : Function.Injective written
  fields : ∀ f ∈ r.fields, Writes written f.1 (reads f.1) f.2

theorem assign_of_unknown {r : RecordDecoder α} {key : String} (unknown : key ∉ r.keys) (record : α) (w : Value) :
    r.assign record key w = .ok record := by
  have none : r.fields.find? (fun f => f.1 == key) = none := by
    refine List.find?_eq_none.2 fun f mem same => unknown ?_
    rw [← beq_iff_eq.1 same]
    exact List.mem_map_of_mem mem
  rw [assign, none]

namespace Faithful

variable {r : RecordDecoder α} {written : α → Document} {reads : String → Value → Value → Prop}
  (faithful : r.Faithful written reads)

include faithful

theorem eq_iff (a b : α) : a = b ↔ ∀ key ∈ r.keys, (written a).get? key = (written b).get? key := by
  constructor
  · rintro rfl
    exact fun _ _ => rfl
  · intro agree
    rw [← faithful.keys a] at agree
    have same : (written a).keys = (written b).keys := (faithful.keys a).trans (faithful.keys b).symm
    exact faithful.injective (Document.eq_of_keys_eq same (faithful.keys a ▸ faithful.nodup) agree)

theorem isWellKeyed {record : α} (members : ∀ m ∈ written record, m.2.isWellKeyed = true) :
    (Value.object (written record)).isWellKeyed = true := by
  refine (Document.isWellKeyed_iff _).2 ⟨?_, members⟩
  rw [faithful.keys]
  exact faithful.nodup

theorem writes_assign {key : String} (known : key ∈ r.keys) :
    Writes written key (reads key) (fun w record => r.assign record key w) := by
  obtain ⟨f, mem, rfl⟩ := List.mem_map.1 known
  obtain ⟨found, same⟩ : ∃ g, r.fields.find? (fun g => g.1 == f.1) = some g :=
    Option.isSome_iff_exists.1 (List.find?_isSome.2 ⟨f, mem, beq_self_eq_true _⟩)
  have name : found.1 = f.1 := by simpa using List.find?_some same
  have writes := faithful.fields found (List.mem_of_find?_eq_some same)
  rw [name] at writes
  simpa only [assign, same] using writes

/-- The members of an object are read in layers, each on its own. -/
theorem assignAll_eq_ok_iff {members : Document} (nodup : members.keys.Nodup) (record last : α) :
    r.assignAll record members = .ok last ↔ ∀ key ∈ r.keys,
      Layered (reads key) (members.get? key) ((written record).get? key) ((written last).get? key) := by
  induction members generalizing record with
  | nil =>
    have same : r.assignAll record [] = .ok last ↔ last = record := by
      rw [assignAll, Except.ok.injEq]
      exact eq_comm
    simp only [same, faithful.eq_iff last record, Document.get?_nil, layered_none_iff]
  | cons m rest ih =>
    obtain ⟨k, w⟩ := m
    obtain ⟨fresh, nodup⟩ : k ∉ Document.keys rest ∧ (Document.keys rest).Nodup := List.nodup_cons.1 nodup
    have gone : Document.get? k rest = none := (Document.get?_eq_none_iff k rest).2 fresh
    rw [assignAll, bind_eq_ok_iff]
    by_cases known : k ∈ r.keys
    · have writes := faithful.writes_assign known
      rw [forall_layered_cons_iff known gone]
      constructor
      · rintro ⟨next, assigned, later⟩
        obtain ⟨v, hv, e⟩ := writes.sound assigned
        exact ⟨v, hv, e ▸ (ih nodup next).1 later⟩
      · rintro ⟨v, hv, layers⟩
        obtain ⟨next, assigned, e⟩ := writes.complete record hv
        exact ⟨next, assigned, (ih nodup next).2 (e ▸ layers)⟩
    · rw [assign_of_unknown known record w]
      simp only [Except.ok.injEq, exists_eq_left', ih nodup record]
      refine forall₂_congr fun key mem => ?_
      have ne : k ≠ key := fun e => known (e ▸ mem)
      rw [Document.get?_cons, if_neg ne]

/-- Reading an object succeeds when every member given for a field can be read. -/
theorem exists_assignAll {members : Document}
    (readable : ∀ m ∈ members, m.1 ∈ r.keys → ∃ v, reads m.1 m.2 v) (record : α) :
    ∃ last, r.assignAll record members = .ok last := by
  induction members generalizing record with
  | nil => exact ⟨record, rfl⟩
  | cons m rest ih =>
    obtain ⟨k, w⟩ := m
    have first : ∃ next, r.assign record k w = .ok next := by
      by_cases known : k ∈ r.keys
      · obtain ⟨v, hv⟩ := readable (k, w) List.mem_cons_self known
        obtain ⟨next, assigned, -⟩ := (faithful.writes_assign known).complete record hv
        exact ⟨next, assigned⟩
      · exact ⟨record, assign_of_unknown known record w⟩
    obtain ⟨next, assigned⟩ := first
    obtain ⟨last, later⟩ := ih (fun m mem => readable m (List.mem_cons_of_mem _ mem)) next
    exact ⟨last, bind_eq_ok_iff.2 ⟨next, assigned, later⟩⟩

end Faithful

end RecordDecoder

end BucketBench
