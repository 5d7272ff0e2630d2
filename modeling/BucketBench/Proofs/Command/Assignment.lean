import BucketBench.Command.Assignment
import BucketBench.Proofs.Json.Reader
import BucketBench.Proofs.Store.Edit
import BucketBench.Proofs.Text.Blank

set_option autoImplicit false

namespace BucketBench.Assignment

/-! ## One assignment -/

/-- An assignment names the path before its first equals sign, and gives it the text behind. -/
def Assigns (assignment path raw : String) : Prop := assignment = path ++ "=" ++ raw ∧ '=' ∉ path.toList

/-- The value that a text stands for: what it reads as JSON, or itself. -/
def denoted (raw : String) : Value := (Json.read? raw).getD (.string raw)

theorem isWellKeyed_denoted (raw : String) : (denoted raw).isWellKeyed = true := by
  unfold denoted
  cases h : Json.read? raw with
  | none => rfl
  | some v => exact Json.isWellKeyed_read? h

theorem assigns_iff {assignment path raw : String} :
    Assigns assignment path raw ↔ Text.splitFirst? '=' assignment.toList = some (path.toList, raw.toList) := by
  have chars : assignment = path ++ "=" ++ raw ↔ assignment.toList = path.toList ++ '=' :: raw.toList := by
    rw [← String.toList_inj]
    simp
  rw [Text.splitFirst?_eq_some_iff, Assigns, chars]

theorem read?_eq_some_iff {assignment path : String} {v : Value} :
    read? assignment = some (path, v) ↔ ∃ raw, Assigns assignment path raw ∧ v = denoted raw := by
  simp only [assigns_iff, read?, Option.map_eq_some_iff, Prod.mk.injEq]
  constructor
  · rintro ⟨⟨front, back⟩, split, rfl, rfl⟩
    exact ⟨String.ofList back, by simpa using split, rfl⟩
  · rintro ⟨raw, split, rfl⟩
    exact ⟨_, split, by simp, by simp [denoted]⟩

/-! ## Lists of assignments -/

def Assigned (assignments : List String) (path : String) : Prop := ∃ a ∈ assignments, ∃ raw, Assigns a path raw

/-- The last one of the assignments to a path gives it this text. -/
def LastAssigned (assignments : List String) (path raw : String) : Prop :=
  ∃ front a back, assignments = front ++ a :: back ∧ Assigns a path raw ∧ ¬ Assigned back path

theorem LastAssigned.assigned {assignments : List String} {path raw : String} (last : LastAssigned assignments path raw) :
    Assigned assignments path := by
  obtain ⟨front, a, back, rfl, assigns, -⟩ := last
  exact ⟨a, List.mem_append_right _ List.mem_cons_self, raw, assigns⟩

theorem readAll_eq_ok_iff {assignments : List String} {pairs : List (String × Value)} :
    readAll assignments = .ok pairs ↔ assignments.map read? = pairs.map some := by
  induction assignments generalizing pairs with
  | nil =>
    simp only [readAll, Except.ok.injEq, List.map_nil]
    rw [eq_comm, eq_comm (a := []), List.map_eq_nil_iff]
  | cons a rest ih =>
    rw [List.map_cons]
    cases first : read? a with
    | none =>
      have broken : readAll (a :: rest) = .error (complaint a) := by simp only [readAll, first]
      rw [broken]
      cases pairs <;> simp
    | some pair =>
      have goes : readAll (a :: rest) = (readAll rest).map (pair :: ·) := by simp only [readAll, first]
      rw [goes, map_eq_ok_iff]
      constructor
      · rintro ⟨more, later, rfl⟩
        rw [ih.1 later, List.map_cons]
      · intro same
        cases pairs with
        | nil => cases same
        | cons p more =>
          obtain ⟨e, later⟩ := List.cons.inj same
          cases e
          exact ⟨more, ih.2 later, rfl⟩

section Read

variable {assignments : List String} {pairs : List (String × Value)}

theorem exists_of_mem_pairs (read : assignments.map read? = pairs.map some) {m : String × Value} (h : m ∈ pairs) :
    ∃ a ∈ assignments, ∃ raw, Assigns a m.1 raw ∧ m.2 = denoted raw := by
  have there : some m ∈ assignments.map read? := read ▸ List.mem_map_of_mem h
  obtain ⟨a, ha, found⟩ := List.mem_map.1 there
  obtain ⟨raw, assigns, e⟩ := read?_eq_some_iff.1 found
  exact ⟨a, ha, raw, assigns, e⟩

theorem mem_keys_iff (read : assignments.map read? = pairs.map some) (path : String) :
    path ∈ Document.keys pairs ↔ Assigned assignments path := by
  constructor
  · intro mem
    obtain ⟨m, hm, rfl⟩ := List.mem_map.1 mem
    obtain ⟨a, ha, raw, assigns, -⟩ := exists_of_mem_pairs read hm
    exact ⟨a, ha, raw, assigns⟩
  · rintro ⟨a, ha, raw, assigns⟩
    have found : read? a = some (path, denoted raw) := read?_eq_some_iff.2 ⟨raw, assigns, rfl⟩
    have there : some (path, denoted raw) ∈ pairs.map some := read ▸ List.mem_map.2 ⟨a, ha, found⟩
    obtain ⟨m, hm, e⟩ := List.mem_map.1 there
    cases e
    exact Document.mem_keys_of_mem hm

theorem get?_fields_of_lastAssigned {path raw : String} (read : assignments.map read? = pairs.map some)
    (last : LastAssigned assignments path raw) : (fields pairs).get? path = some (denoted raw) := by
  obtain ⟨front, a, back, rfl, assigns, later⟩ := last
  have found : read? a = some (path, denoted raw) := read?_eq_some_iff.2 ⟨raw, assigns, rfl⟩
  rw [List.map_append, List.map_cons, found] at read
  obtain ⟨before, rest, rfl, -, hr⟩ := List.map_eq_append_iff.1 read.symm
  obtain ⟨m, after, rfl, e, ha⟩ := List.map_eq_cons_iff.1 hr
  cases e
  have absent : path ∉ Document.keys after := fun mem => later ((mem_keys_iff ha.symm path).1 mem)
  exact Document.get?_overlay_of_last absent []

theorem isWellKeyed_fields (read : assignments.map read? = pairs.map some) : (fields pairs).isWellKeyed = true := by
  apply Document.isWellKeyed_ofMembers
  intro m hm
  obtain ⟨a, -, raw, -, e⟩ := exists_of_mem_pairs read hm
  rw [e]
  exact isWellKeyed_denoted raw

end Read

theorem mem_keys_fields {members : List (String × Value)} {path : String} :
    path ∈ (fields members).keys ↔ path ∈ Document.keys members := by
  have keys := Document.mem_keys_overlay [] members path
  rw [fields, Document.ofMembers, keys]
  exact or_iff_right List.not_mem_nil

/-! ## Whole updates -/

/-- The fields that are named to be removed; what they stand with is never read. -/
def removalFields (removals : List String) : Document := fields (removals.map (·, .string ""))

theorem isWellKeyed_removalFields (removals : List String) : (removalFields removals).isWellKeyed = true := by
  apply Document.isWellKeyed_ofMembers
  intro m hm
  obtain ⟨path, -, rfl⟩ := List.mem_map.1 hm
  rfl

theorem mem_keys_removalFields {removals : List String} {path : String} :
    path ∈ (removalFields removals).keys ↔ path ∈ removals := by
  rw [removalFields, mem_keys_fields]
  simp [Document.keys]

theorem exists_pairs_of_update {assignments removals : List String} {u : Document}
    (built : update assignments removals = .ok u) :
    ∃ pairs, assignments.map read? = pairs.map some ∧
      u = operator "$set" (fields pairs) ++ operator "$unset" (removalFields removals) := by
  unfold update at built
  split at built
  · cases built
  · obtain ⟨pairs, read, rfl⟩ := map_eq_ok_iff.1 built
    exact ⟨pairs, readAll_eq_ok_iff.1 read, rfl⟩

theorem mem_operator {name : String} {d : Document} {m : String × Value} (h : m ∈ operator name d) :
    m = (name, .object d) := by
  unfold operator at h
  split at h
  · cases h
  · exact List.mem_singleton.1 h

theorem keys_operator (name : String) (d : Document) : (operator name d).keys.Sublist [name] := by
  unfold operator
  split
  · exact List.nil_sublist _
  · exact List.Sublist.refl _

theorem listing_operator (name : String) (d : Document) :
    Edit.listing (operator name d) = d.map (Edit.ofField name) := by
  unfold operator
  split
  · rename_i empty
    rw [List.isEmpty_iff.1 empty]
    rfl
  · exact List.append_nil _

section Update

variable {assignments removals : List String} {u : Document}

theorem acceptable_update (built : update assignments removals = .ok u) : Edit.Acceptable u := by
  obtain ⟨pairs, -, rfl⟩ := exists_pairs_of_update built
  intro m hm
  rcases List.mem_append.1 hm with hm | hm
  · rw [mem_operator hm]
    exact ⟨Or.inl rfl, rfl⟩
  · rw [mem_operator hm]
    exact ⟨Or.inr rfl, rfl⟩

theorem isWellKeyed_update (built : update assignments removals = .ok u) : u.isWellKeyed = true := by
  obtain ⟨pairs, read, rfl⟩ := exists_pairs_of_update built
  refine (Document.isWellKeyed_iff _).2 ⟨?_, ?_⟩
  · have both := (keys_operator "$set" (fields pairs)).append (keys_operator "$unset" (removalFields removals))
    rw [Document.keys, List.map_append]
    exact both.nodup (by decide)
  · intro m hm
    rcases List.mem_append.1 hm with hm | hm
    · rw [mem_operator hm]
      exact isWellKeyed_fields read
    · rw [mem_operator hm]
      exact isWellKeyed_removalFields removals

theorem exists_listing_of_update (built : update assignments removals = .ok u) :
    ∃ pairs, assignments.map read? = pairs.map some ∧
      Edit.listing u = (fields pairs).map (fun m => .set m.1 m.2) ++
        (removalFields removals).map fun m => .unset m.1 := by
  obtain ⟨pairs, read, rfl⟩ := exists_pairs_of_update built
  refine ⟨pairs, read, ?_⟩
  have parts : Edit.listing (operator "$set" (fields pairs) ++ operator "$unset" (removalFields removals)) =
      Edit.listing (operator "$set" (fields pairs)) ++ Edit.listing (operator "$unset" (removalFields removals)) :=
    List.flatMap_append
  rw [parts, listing_operator, listing_operator]
  rfl

theorem isWellKeyed_of_mem_listing {e : Edit} (built : update assignments removals = .ok u)
    (h : e ∈ Edit.listing u) : e.isWellKeyed = true :=
  Edit.isWellKeyed_of_mem_listing (isWellKeyed_update built) h

theorem set_mem_listing {path raw : String} (built : update assignments removals = .ok u)
    (last : LastAssigned assignments path raw) : .set path (denoted raw) ∈ Edit.listing u := by
  obtain ⟨pairs, read, e⟩ := exists_listing_of_update built
  have found := Document.mem_of_get? (get?_fields_of_lastAssigned read last)
  rw [e]
  exact List.mem_append_left _ (List.mem_map.2 ⟨_, found, rfl⟩)

theorem unset_mem_listing {path : String} (built : update assignments removals = .ok u) (h : path ∈ removals) :
    .unset path ∈ Edit.listing u := by
  obtain ⟨pairs, -, e⟩ := exists_listing_of_update built
  obtain ⟨m, hm, rfl⟩ := List.mem_map.1 (mem_keys_removalFields.2 h)
  rw [e]
  exact List.mem_append_right _ (List.mem_map.2 ⟨m, hm, rfl⟩)

def Touched (assignments removals : List String) (path : String) : Prop := Assigned assignments path ∨ path ∈ removals

/-- Different paths do not meet, and none is both assigned and removed. -/
structure Separate (assignments removals : List String) : Prop where
  apart : ∀ p q, Touched assignments removals p → Touched assignments removals q → p ≠ q → Incomparable p q
  once : ∀ p ∈ removals, ¬ Assigned assignments p

theorem map_path_listing (built : update assignments removals = .ok u) :
    ∃ pairs, assignments.map read? = pairs.map some ∧
      (Edit.listing u).map Edit.path = (fields pairs).keys ++ (removalFields removals).keys := by
  obtain ⟨pairs, read, e⟩ := exists_listing_of_update built
  refine ⟨pairs, read, ?_⟩
  rw [e, List.map_append, List.map_map, List.map_map]
  rfl

theorem touched_of_mem_listing {e : Edit} (built : update assignments removals = .ok u) (h : e ∈ Edit.listing u) :
    Touched assignments removals e.path := by
  obtain ⟨pairs, read, paths⟩ := map_path_listing built
  have mem : e.path ∈ (Edit.listing u).map Edit.path := List.mem_map_of_mem h
  rw [paths, List.mem_append, mem_keys_fields, mem_keys_iff read, mem_keys_removalFields] at mem
  exact mem

theorem pairwise_listing (built : update assignments removals = .ok u) (separate : Separate assignments removals) :
    (Edit.listing u).Pairwise fun e f => Incomparable e.path f.path := by
  obtain ⟨pairs, read, paths⟩ := map_path_listing built
  have nodup : ((Edit.listing u).map Edit.path).Nodup := by
    rw [paths]
    refine List.nodup_append.2 ⟨Document.nodup_keys (isWellKeyed_fields read),
      Document.nodup_keys (isWellKeyed_removalFields removals), ?_⟩
    rintro p assigned q removed rfl
    exact separate.once p (mem_keys_removalFields.1 removed) ((mem_keys_iff read p).1 (mem_keys_fields.1 assigned))
  have touched : ∀ p ∈ (Edit.listing u).map Edit.path, Touched assignments removals p := by
    intro p hp
    obtain ⟨e, he, rfl⟩ := List.mem_map.1 hp
    exact touched_of_mem_listing built he
  have apart : ((Edit.listing u).map Edit.path).Pairwise Incomparable :=
    nodup.pairwise_of_forall_ne fun p hp q hq ne => separate.apart p q (touched p hp) (touched q hq) ne
  exact List.pairwise_map.1 apart

end Update

end BucketBench.Assignment
