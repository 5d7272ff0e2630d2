import BucketBench.Json.Value

set_option autoImplicit false

/-!
# The texts of a value and the rest of it

A value is its skeleton, in which every text is blank, and its texts in the order in which they stand. The two
determine it, and any texts of the right number fit into a skeleton.
-/

namespace BucketBench.Value

mutual

/-- The texts in a value, in order; keys are no texts. -/
def texts : Value → List String
  | .string s => [s]
  | .array items => textsOfItems items
  | .object members => textsOfMembers members
  | _ => []

def textsOfItems : List Value → List String
  | [] => []
  | v :: rest => v.texts ++ textsOfItems rest

def textsOfMembers : Document → List String
  | [] => []
  | (_, v) :: rest => v.texts ++ textsOfMembers rest

end

mutual

/-- A value with every text in it blanked: its kinds, numbers, keys and their order. -/
def skeleton : Value → Value
  | .string _ => .string ""
  | .array items => .array (skeletonOfItems items)
  | .object members => .object (skeletonOfMembers members)
  | v => v

def skeletonOfItems : List Value → List Value
  | [] => []
  | v :: rest => v.skeleton :: skeletonOfItems rest

def skeletonOfMembers : Document → Document
  | [] => []
  | (k, v) :: rest => (k, v.skeleton) :: skeletonOfMembers rest

end

@[simp] theorem textsOfItems_eq (items : List Value) : textsOfItems items = items.flatMap texts := by
  induction items with
  | nil => rfl
  | cons v rest ih => rw [textsOfItems, ih, List.flatMap_cons]

@[simp] theorem textsOfMembers_eq (members : Document) : textsOfMembers members = members.values.flatMap texts := by
  induction members with
  | nil => rfl
  | cons m rest ih =>
    obtain ⟨k, v⟩ := m
    rw [textsOfMembers, ih, Document.values, Document.values, List.map_cons, List.flatMap_cons]

@[simp] theorem skeletonOfItems_eq (items : List Value) : skeletonOfItems items = items.map skeleton := by
  induction items with
  | nil => rfl
  | cons v rest ih => rw [skeletonOfItems, ih, List.map_cons]

@[simp] theorem skeletonOfMembers_eq (members : Document) :
    skeletonOfMembers members = members.map fun m => (m.1, m.2.skeleton) := by
  induction members with
  | nil => rfl
  | cons m rest ih => rw [skeletonOfMembers, ih, List.map_cons]

/-- Documents have one skeleton when they have the same keys and their values have the same skeletons. -/
theorem skeleton_object_eq_iff (d e : Document) :
    (object d).skeleton = (object e).skeleton ↔ d.keys = e.keys ∧ d.values.map skeleton = e.values.map skeleton := by
  simp only [skeleton, skeletonOfMembers_eq, object.injEq]
  induction d generalizing e with
  | nil => cases e <;> simp [Document.keys, Document.values]
  | cons m rest ih =>
    cases e with
    | nil => simp [Document.keys]
    | cons n more =>
      simp only [List.map_cons, List.cons.injEq, Prod.mk.injEq, ih, Document.keys, Document.values]
      constructor
      · rintro ⟨⟨key, value⟩, keys, values⟩
        exact ⟨⟨key, keys⟩, value, values⟩
      · rintro ⟨⟨key, keys⟩, value, values⟩
        exact ⟨⟨key, value⟩, keys, values⟩

theorem document_ext {d e : Document} (keys : d.keys = e.keys) (values : d.values = e.values) : d = e := by
  induction d generalizing e with
  | nil => cases e <;> simp_all [Document.keys]
  | cons m rest ih =>
    cases e with
    | nil => simp [Document.keys] at keys
    | cons n more =>
      simp only [Document.keys, Document.values, List.map_cons, List.cons.injEq] at keys values
      rw [Prod.ext keys.1 values.1, ih keys.2 values.2]

theorem length_flatMap_texts {items others : List Value}
    (each : ∀ v ∈ items, ∀ w : Value, v.skeleton = w.skeleton → v.texts.length = w.texts.length)
    (h : items.map skeleton = others.map skeleton) :
    (items.flatMap texts).length = (others.flatMap texts).length := by
  induction items generalizing others with
  | nil =>
    cases others with
    | nil => rfl
    | cons w more => simp at h
  | cons v rest ih =>
    cases others with
    | nil => simp at h
    | cons w more =>
      simp only [List.map_cons, List.cons.injEq] at h
      have first := each v List.mem_cons_self w h.1
      have others := ih (fun u hu => each u (List.mem_cons_of_mem _ hu)) h.2
      simp only [List.flatMap_cons, List.length_append, first, others]

theorem length_texts_of_skeleton {v w : Value} (h : v.skeleton = w.skeleton) : v.texts.length = w.texts.length := by
  induction v using Value.induct generalizing w with
  | array items ih =>
    cases w with
    | array others =>
      simp only [skeleton, skeletonOfItems_eq, array.injEq] at h
      simpa only [texts, textsOfItems_eq] using length_flatMap_texts (fun v hv w => ih v hv) h
    | _ => simp [skeleton] at h
  | object members ih =>
    cases w with
    | object others =>
      have values := ((skeleton_object_eq_iff members others).1 h).2
      have each : ∀ v ∈ members.values, ∀ w : Value, v.skeleton = w.skeleton → v.texts.length = w.texts.length :=
        List.forall_mem_map.2 fun m hm w => ih m hm
      simpa only [texts, textsOfMembers_eq] using length_flatMap_texts each values
    | _ => simp [skeleton] at h
  | _ => cases w <;> simp_all [skeleton, texts]

theorem eq_of_flatMap_texts {items others : List Value}
    (each : ∀ v ∈ items, ∀ w : Value, v.skeleton = w.skeleton → v.texts = w.texts → v = w)
    (h : items.map skeleton = others.map skeleton) (t : items.flatMap texts = others.flatMap texts) :
    items = others := by
  induction items generalizing others with
  | nil =>
    cases others with
    | nil => rfl
    | cons w more => simp at h
  | cons v rest ih =>
    cases others with
    | nil => simp at h
    | cons w more =>
      simp only [List.map_cons, List.cons.injEq] at h
      simp only [List.flatMap_cons] at t
      obtain ⟨first, later⟩ := List.append_inj t (length_texts_of_skeleton h.1)
      rw [each v List.mem_cons_self w h.1 first, ih (fun u hu => each u (List.mem_cons_of_mem _ hu)) h.2 later]

theorem eq_of_skeleton_of_texts {v w : Value} (h : v.skeleton = w.skeleton) (t : v.texts = w.texts) : v = w := by
  induction v using Value.induct generalizing w with
  | array items ih =>
    cases w with
    | array others =>
      simp only [skeleton, skeletonOfItems_eq, array.injEq] at h
      simp only [texts, textsOfItems_eq] at t
      rw [eq_of_flatMap_texts (fun v hv w => ih v hv) h t]
    | _ => simp [skeleton] at h
  | object members ih =>
    cases w with
    | object others =>
      obtain ⟨keys, values⟩ := (skeleton_object_eq_iff members others).1 h
      have each : ∀ v ∈ members.values, ∀ w : Value, v.skeleton = w.skeleton → v.texts = w.texts → v = w :=
        List.forall_mem_map.2 fun m hm w => ih m hm
      simp only [texts, textsOfMembers_eq] at t
      rw [document_ext keys (eq_of_flatMap_texts each values t)]
    | _ => simp [skeleton] at h
  | _ => cases w <;> simp_all [skeleton, texts]

theorem exists_items_of_texts {items : List Value}
    (each : ∀ v ∈ items, ∀ ts : List String, ts.length = v.texts.length →
      ∃ w : Value, w.skeleton = v.skeleton ∧ w.texts = ts)
    {ts : List String} (h : ts.length = (items.flatMap texts).length) :
    ∃ others : List Value, others.map skeleton = items.map skeleton ∧ others.flatMap texts = ts := by
  induction items generalizing ts with
  | nil => exact ⟨[], rfl, (List.eq_nil_of_length_eq_zero h).symm⟩
  | cons v rest ih =>
    rw [List.flatMap_cons, List.length_append] at h
    have front : (ts.take v.texts.length).length = v.texts.length := by
      rw [List.length_take]
      omega
    have back : (ts.drop v.texts.length).length = (rest.flatMap texts).length := by
      rw [List.length_drop]
      omega
    obtain ⟨w, hw, first⟩ := each v List.mem_cons_self _ front
    obtain ⟨others, ho, later⟩ := ih (fun u hu => each u (List.mem_cons_of_mem _ hu)) back
    refine ⟨w :: others, by rw [List.map_cons, List.map_cons, hw, ho], ?_⟩
    rw [List.flatMap_cons, first, later, List.take_append_drop]

theorem exists_of_texts (v : Value) {ts : List String} (h : ts.length = v.texts.length) :
    ∃ w : Value, w.skeleton = v.skeleton ∧ w.texts = ts := by
  induction v using Value.induct generalizing ts with
  | string s =>
    obtain ⟨t, rfl⟩ := List.length_eq_one_iff.1 h
    exact ⟨.string t, rfl, rfl⟩
  | array items ih =>
    rw [texts, textsOfItems_eq] at h
    obtain ⟨others, same, found⟩ := exists_items_of_texts (fun v hv _ => ih v hv) h
    refine ⟨.array others, ?_, by rw [texts, textsOfItems_eq, found]⟩
    rw [skeleton, skeleton, skeletonOfItems_eq, skeletonOfItems_eq, same]
  | object members ih =>
    rw [texts, textsOfMembers_eq] at h
    have each : ∀ v ∈ members.values, ∀ ts : List String, ts.length = v.texts.length →
        ∃ w : Value, w.skeleton = v.skeleton ∧ w.texts = ts :=
      List.forall_mem_map.2 fun m hm _ => ih m hm
    obtain ⟨others, same, found⟩ := exists_items_of_texts each h
    have length : members.keys.length = others.length := by
      have lengths := congrArg List.length same
      simpa [Document.keys, Document.values] using lengths.symm
    let d : Document := members.keys.zip others
    have keys : d.keys = members.keys := List.map_fst_zip (Nat.le_of_eq length)
    have values : d.values = others := List.map_snd_zip (Nat.le_of_eq length.symm)
    refine ⟨.object d, (skeleton_object_eq_iff d members).2 ⟨keys, by rw [values, same]⟩, ?_⟩
    rw [texts, textsOfMembers_eq, values, found]
  | _ => exact ⟨_, rfl, (List.eq_nil_of_length_eq_zero h).symm⟩

end BucketBench.Value
