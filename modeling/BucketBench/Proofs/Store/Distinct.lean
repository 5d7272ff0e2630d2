import BucketBench.Proofs.Store.Alike
import Mathlib.Data.List.Induction

set_option autoImplicit false

namespace BucketBench

/-! ## In order of first sight -/

section FirstSight

variable {α β : Type} (shows : α → β → Bool) {xs : List α} {ys : List β}

theorem findIdx_append_of_seen {y : β} (seen : ∃ x ∈ xs, shows x y = true) (more : List α) :
    (xs ++ more).findIdx (shows · y) = xs.findIdx (shows · y) := by
  rw [List.findIdx_append]
  exact if_pos (List.findIdx_lt_length_of_exists seen)

variable (seen : ∀ y ∈ ys, ∃ x ∈ xs, shows x y = true)
  (ordered : ys.Pairwise fun v w => xs.findIdx (shows · v) < xs.findIdx (shows · w))
include seen ordered

theorem pairwise_findIdx_append (more : List α) :
    ys.Pairwise fun v w => (xs ++ more).findIdx (shows · v) < (xs ++ more).findIdx (shows · w) := by
  refine ordered.imp_of_mem fun hv hw before => ?_
  rwa [findIdx_append_of_seen shows (seen _ hv), findIdx_append_of_seen shows (seen _ hw)]

/-- What nothing showed so far comes into sight last. -/
theorem pairwise_findIdx_concat {x : α} {y : β} (unseen : ∀ u ∈ xs, shows u y = false) (shown : shows x y = true) :
    (ys ++ [y]).Pairwise fun v w => (xs ++ [x]).findIdx (shows · v) < (xs ++ [x]).findIdx (shows · w) := by
  have earlier := pairwise_findIdx_append shows seen ordered [x]
  have last : (xs ++ [x]).findIdx (shows · y) = xs.length := by
    rw [List.findIdx_append, List.findIdx_eq_length.2 unseen]
    simp [List.findIdx_cons, shown]
  refine List.pairwise_append.2 ⟨earlier, List.pairwise_singleton _ _, fun v hv w hw => ?_⟩
  obtain rfl := List.mem_singleton.1 hw
  rw [last, findIdx_append_of_seen shows (seen v hv)]
  exact List.findIdx_lt_length_of_exists (seen v hv)

end FirstSight

namespace Value

variable {v w : Value} {items seen : List Value}

theorem isIn_iff (v : Value) (items : List Value) : v.isIn items = true ↔ ∃ w ∈ items, w.same v = true := by
  simp [isIn]

theorem isIn_append (v : Value) (items more : List Value) : v.isIn (items ++ more) = (v.isIn items || v.isIn more) :=
  List.any_append

theorem isIn_singleton (v w : Value) : v.isIn [w] = w.same v := by
  simp [isIn]

/-- What equals a value of a list equals it again under a value that is the same. -/
theorem isIn_of_same (keyed : ∀ u ∈ items, u.isWellKeyed = true) (hw : w.isWellKeyed = true) (hv : v.isWellKeyed = true)
    (h : w.isIn items = true) (same : w.same v = true) : v.isIn items = true := by
  obtain ⟨u, hu, first⟩ := (isIn_iff w items).1 h
  exact (isIn_iff v items).2 ⟨u, hu, same_trans (keyed u hu) hw hv first same⟩

end Value

namespace Collection

theorem mem_addNew {seen : List Value} {v w : Value} (h : w ∈ addNew seen v) : w ∈ seen ∨ w = v := by
  unfold addNew at h
  split at h
  · exact .inl h
  · simpa using h

theorem mem_of_mem_foldl_addNew {values seen : List Value} {v : Value} (h : v ∈ values.foldl addNew seen) :
    v ∈ seen ∨ v ∈ values := by
  induction values generalizing seen with
  | nil => exact .inl h
  | cons w rest ih =>
    rcases ih h with h | h
    · rcases mem_addNew h with h | rfl
      · exact .inl h
      · exact .inr List.mem_cons_self
    · exact .inr (List.mem_cons_of_mem _ h)

def firstSight (sights : List Value) (v : Value) : Nat := sights.findIdx (·.same v)

structure KeepsFirst (sights kept : List Value) : Prop where
  complete : ∀ v : Value, v.isWellKeyed = true → (v.isIn kept = true ↔ v.isIn sights = true)
  first : ∀ v ∈ kept, sights.find? (·.same v) = some v
  ordered : kept.Pairwise fun v w => firstSight sights v < firstSight sights w
  different : kept.Pairwise fun v w => v.same w = false

namespace KeepsFirst

variable {sights kept : List Value} {v w : Value}

theorem mem (h : KeepsFirst sights kept) (hv : v ∈ kept) : v ∈ sights := List.mem_of_find?_eq_some (h.first v hv)

theorem seen (h : KeepsFirst sights kept) (v : Value) (hv : v ∈ kept) : ∃ u ∈ sights, u.same v = true :=
  ⟨v, h.mem hv, List.find?_some (p := fun u : Value => u.same v) (h.first v hv)⟩

theorem find?_append (h : KeepsFirst sights kept) (more : List Value) (hv : v ∈ kept) :
    (sights ++ more).find? (·.same v) = some v := by
  rw [List.find?_append, h.first v hv]
  rfl

/-- A value of a kind that was in sight changes nothing. -/
theorem of_known (h : KeepsFirst sights kept) (keyed : ∀ u ∈ kept, u.isWellKeyed = true) (hw : w.isWellKeyed = true)
    (known : w.isIn kept = true) : KeepsFirst (sights ++ [w]) kept where
  complete v hv := by
    rw [Value.isIn_append, Value.isIn_singleton, Bool.or_eq_true, ← h.complete v hv]
    refine ⟨.inl, ?_⟩
    rintro (there | same)
    · exact there
    · exact Value.isIn_of_same keyed hw hv known same
  first v hv := h.find?_append [w] hv
  ordered := pairwise_findIdx_append Value.same h.seen h.ordered [w]
  different := h.different

/-- A value of a new kind comes into sight last. -/
theorem of_unseen (h : KeepsFirst sights kept) (hw : w.isWellKeyed = true) (unseen : ∀ u ∈ sights, u.same w = false) :
    KeepsFirst (sights ++ [w]) (kept ++ [w]) where
  complete v hv := by
    rw [Value.isIn_append, Value.isIn_append, Bool.or_eq_true, Bool.or_eq_true, h.complete v hv]
  first v hv := by
    rcases List.mem_append.1 hv with hv | hv
    · exact h.find?_append [w] hv
    · obtain rfl := List.mem_singleton.1 hv
      have absent : sights.find? (·.same v) = none := List.find?_eq_none.2 fun u hu => by simp [unseen u hu]
      rw [List.find?_append, absent]
      simp [Value.same_refl hw]
  ordered := pairwise_findIdx_concat Value.same h.seen h.ordered unseen (Value.same_refl hw)
  different := by
    refine List.pairwise_append.2 ⟨h.different, List.pairwise_singleton _ _, fun v hv u hu => ?_⟩
    obtain rfl := List.mem_singleton.1 hu
    exact unseen v (h.mem hv)

theorem addNew (h : KeepsFirst sights kept) (keyed : ∀ u ∈ sights, u.isWellKeyed = true) (hw : w.isWellKeyed = true) :
    KeepsFirst (sights ++ [w]) (addNew kept w) := by
  unfold Collection.addNew
  split
  · rename_i known
    exact h.of_known (fun u hu => keyed u (h.mem hu)) hw known
  · rename_i unknown
    refine h.of_unseen hw fun u hu => ?_
    rw [h.complete w hw, Value.isIn_iff] at unknown
    by_contra same
    exact unknown ⟨u, hu, by simpa using same⟩

end KeepsFirst

theorem keepsFirst_foldl {sights : List Value} (keyed : ∀ v ∈ sights, v.isWellKeyed = true) :
    KeepsFirst sights (sights.foldl addNew []) := by
  induction sights using List.reverseRecOn with
  | nil => exact ⟨fun _ _ => Iff.rfl, fun _ hv => absurd hv List.not_mem_nil, .nil, .nil⟩
  | append_singleton front w ih =>
    have earlier : ∀ v ∈ front, v.isWellKeyed = true := fun v hv => keyed v (List.mem_append_left _ hv)
    have last : w.isWellKeyed = true := keyed w (List.mem_append_right _ List.mem_cons_self)
    rw [List.foldl_concat]
    exact (ih earlier).addNew earlier last

end Collection

/-! ## What a document contributes -/

/-- What a document contributes to the values at a path: the value there unless it is an array, the elements if it is. -/
inductive Document.Contributes (path : List String) (d : Document) (v : Value) : Prop where
  | whole {w : Value} (found : d.at? path = some w) (single : w.isArray = false) (same : w.same v = true)
  | element {items : List Value} (found : d.at? path = some (.array items)) (inside : v.isIn items = true)

namespace Collection

section Document

variable {path : List String} {d : Document} {v : Value}

theorem mem_valuesAt (h : v ∈ valuesAt path d) :
    d.at? path = some v ∨ ∃ items, d.at? path = some (.array items) ∧ v ∈ items := by
  unfold valuesAt at h
  split at h
  · exact .inr ⟨_, ‹_›, h⟩
  · rw [List.mem_singleton.1 h]
    exact .inl ‹_›
  · exact absurd h List.not_mem_nil

theorem isIn_valuesAt_iff : v.isIn (valuesAt path d) = true ↔ d.Contributes path v := by
  constructor
  · intro h
    unfold valuesAt at h
    split at h
    · exact .element ‹_› h
    · rename_i w notArray found
      rw [Value.isIn_singleton] at h
      refine .whole found ?_ h
      cases w with
      | array items => exact absurd rfl (notArray items)
      | _ => rfl
    · exact absurd h Bool.false_ne_true
  · rintro (⟨found, single, same⟩ | ⟨found, inside⟩)
    · rwa [valuesAt_of_not_array found single, Value.isIn_singleton]
    · rwa [valuesAt, found]

/-- A filter for a value that is no array finds the documents that contribute it. -/
theorem meets_of_contributes (single : v.isArray = false) (h : d.Contributes path v) : meets (d.at? path) v = true := by
  cases h with
  | whole found notArray same =>
    rw [found]
    exact meets_of_same same
  | element found inside =>
    rw [found, meets, single]
    exact inside

/-- It finds others only when the value is null, which an absent value equals. -/
theorem contributes_of_meets (single : v.isArray = false) (notNull : v.isNull = false)
    (h : meets (d.at? path) v = true) : d.Contributes path v := by
  cases found : d.at? path with
  | none =>
    rw [found, meets, notNull] at h
    exact absurd h Bool.false_ne_true
  | some w =>
    rw [found] at h
    cases w with
    | array items =>
      rw [meets, single] at h
      exact .element found h
    | _ => exact .whole found rfl h

/-- A filter for an array finds the documents with an equal array, whatever arrays have it as an element. -/
theorem meets_array_iff (isArray : v.isArray = true) :
    meets (d.at? path) v = true ↔ ∃ w, d.at? path = some w ∧ w.same v = true := by
  constructor
  · intro h
    cases found : d.at? path with
    | none =>
      rw [found] at h
      cases v <;> simp_all [meets, Value.isArray, Value.isNull]
    | some w =>
      refine ⟨w, rfl, ?_⟩
      rw [found] at h
      cases w with
      | array items => rwa [meets, isArray] at h
      | _ => exact h
  · rintro ⟨w, found, same⟩
    rw [found]
    exact meets_of_same same

end Document

section Collection

variable {c : Collection} {path : String} {filter : Document} {v : Value}

/-- The values that the matching documents contribute, in the order of the documents and of the elements in each. -/
def sights (c : Collection) (path : String) (filter : Document) : List Value :=
  let held := (c.documents.filter (Document.matchesFilter filter)).filterMap (·.at? (pathKeys path))
  held.flatMap fun
    | .array items => items
    | v => [v]

theorem sights_eq : c.sights path filter = (c.find filter).flatMap (valuesAt (pathKeys path)) := by
  unfold sights find
  induction c.documents.filter (Document.matchesFilter filter) with
  | nil => rfl
  | cons d rest ih =>
    rw [List.filterMap_cons, List.flatMap_cons, ← ih, valuesAt]
    cases d.at? (pathKeys path) with
    | none => rfl
    | some v => cases v <;> rfl

def LeadsBack (c : Collection) (path : String) (filter : Document) (v : Value) : Prop :=
  ∃ d ∈ c.documents, Document.matchesFilter filter d = true ∧ Document.matchesFilter [(path, v)] d = true

theorem exists_at?_of_mem_sights (h : v ∈ c.sights path filter) : ∃ d ∈ c.documents,
    d.at? (pathKeys path) = some v ∨ ∃ items, d.at? (pathKeys path) = some (.array items) ∧ v ∈ items := by
  rw [sights_eq] at h
  obtain ⟨d, hd, hv⟩ := List.mem_flatMap.1 h
  exact ⟨d, List.mem_of_mem_filter hd, mem_valuesAt hv⟩

theorem mem_sights_of_mem_distinct (h : v ∈ c.distinct path filter) : v ∈ c.sights path filter :=
  sights_eq ▸ (mem_of_mem_foldl_addNew h).resolve_left List.not_mem_nil

theorem isWellKeyed_of_mem_sights (keyed : ∀ d ∈ c.documents, d.isWellKeyed = true) (h : v ∈ c.sights path filter) :
    v.isWellKeyed = true := by
  obtain ⟨d, hd, found | ⟨items, found, inside⟩⟩ := exists_at?_of_mem_sights h
  · exact Document.isWellKeyed_at? (keyed d hd) found
  · exact (Value.areWellKeyed_iff items).1 (Document.isWellKeyed_at? (keyed d hd) found) v inside

theorem keepsFirst_distinct (keyed : ∀ d ∈ c.documents, d.isWellKeyed = true) (path : String) (filter : Document) :
    KeepsFirst (c.sights path filter) (c.distinct path filter) := by
  rw [distinct, ← sights_eq]
  exact keepsFirst_foldl fun _ hv => isWellKeyed_of_mem_sights keyed hv

theorem isIn_sights_iff : v.isIn (c.sights path filter) = true ↔
    ∃ d ∈ c.documents, Document.matchesFilter filter d = true ∧ d.Contributes (pathKeys path) v := by
  have each : v.isIn (c.sights path filter) = (c.find filter).any fun d => v.isIn (valuesAt (pathKeys path) d) := by
    rw [sights_eq]
    exact List.any_flatMap
  simp only [each, List.any_eq_true, isIn_valuesAt_iff, find, List.mem_filter, and_assoc]

theorem isIn_distinct_iff (keyed : ∀ d ∈ c.documents, d.isWellKeyed = true) (hv : v.isWellKeyed = true) :
    v.isIn (c.distinct path filter) = true ↔
      ∃ d ∈ c.documents, Document.matchesFilter filter d = true ∧ d.Contributes (pathKeys path) v :=
  ((keepsFirst_distinct keyed path filter).complete v hv).trans isIn_sights_iff

theorem isIn_distinct_of_mem (keyed : ∀ d ∈ c.documents, d.isWellKeyed = true) (h : v ∈ c.distinct path filter) :
    v.isWellKeyed = true ∧ v.isIn (c.distinct path filter) = true := by
  have hv := isWellKeyed_of_mem_sights keyed (mem_sights_of_mem_distinct h)
  exact ⟨hv, (Value.isIn_iff _ _).2 ⟨v, h, Value.same_refl hv⟩⟩

theorem leadsBack_iff : c.LeadsBack path filter v ↔
    ∃ d ∈ c.documents, Document.matchesFilter filter d = true ∧ meets (d.at? (pathKeys path)) v = true := by
  simp only [LeadsBack, matchesFilter_singleton]

end Collection

/-- The distinct values at a path are pairwise different; they are the values that matching documents contribute there, up
to equality; each is the first of its kind in sight, and they stand in the order of first sight. -/
theorem distinct_collects {c : Collection} (keyed : ∀ d ∈ c.documents, d.isWellKeyed = true) (path : String)
    (filter : Document) :
    ((c.distinct path filter).Pairwise fun v w => v.same w = false) ∧
      (∀ v : Value, v.isWellKeyed = true → (v.isIn (c.distinct path filter) = true ↔
        ∃ d ∈ c.documents, Document.matchesFilter filter d = true ∧ d.Contributes (pathKeys path) v)) ∧
      (∀ v ∈ c.distinct path filter, (c.sights path filter).find? (·.same v) = some v) ∧
      (c.distinct path filter).Pairwise fun v w =>
        firstSight (c.sights path filter) v < firstSight (c.sights path filter) w := by
  have kept := keepsFirst_distinct keyed path filter
  exact ⟨kept.different, fun v hv => isIn_distinct_iff keyed hv, kept.first, kept.ordered⟩

/-- The second run has the members of a label in another order, the fourth the other zero; one run passed. -/
theorem distinct_collects_labels :
    let label : Document := [("owner", .string "qa"), ("rank", .int 0)]
    let reordered : Document := [("rank", .int 0), ("owner", .string "qa")]
    let run : String → Value → Document := fun result labels =>
      [("result", .string result), ("env", .object [("labels", labels)])]
    let runs : Collection :=
      ⟨[run "Fail" (.array [.object label, .int 0, .array [.string "s3"]]), run "Fail" (.object reordered),
        run "Fail" (.array [.string "s3", .double (.zero false), .int 0]), run "Fail" (.double (.zero true)),
        run "Fail" (.array []), [("result", .string "Fail")], run "Pass" (.string "tagging")], numbered⟩
    let listed := runs.distinct "env.labels" [("result", .string "Fail")]
    listed = [.object label, .int 0, .array [.string "s3"], .string "s3", .double (.zero false)] ∧
      listed.Pairwise (fun v w => v.same w = false) ∧ (Value.object reordered).isIn listed = true ∧
      (Value.double (.zero true)).isIn listed = true ∧ (Value.string "tagging").isIn listed = false := by
  intro label reordered run runs listed
  have keyed : ∀ d ∈ runs.documents, d.isWellKeyed = true := by decide
  obtain ⟨different, collected, -, -⟩ := distinct_collects keyed "env.labels" [("result", .string "Fail")]
  have listing : listed = [.object label, .int 0, .array [.string "s3"], .string "s3", .double (.zero false)] := by
    cbv
  have tagging : (Value.string "tagging").isIn listed = false := by
    rw [listing]
    rfl
  have other : (Value.object reordered).isIn listed = true := by
    refine (collected (.object reordered) (by decide)).2 ⟨run "Fail" (.object reordered), ?_, rfl, .whole rfl rfl rfl⟩
    exact List.mem_cons_of_mem _ List.mem_cons_self
  have zero : (Value.double (.zero true)).isIn listed = true := by
    refine (collected (.double (.zero true)) rfl).2 ⟨run "Fail" (.double (.zero true)), ?_, rfl, .whole rfl rfl rfl⟩
    simp only [runs, List.mem_cons, true_or, or_true]
  exact ⟨listing, different, other, zero, tagging⟩

/-- A distinct value that is no array leads back to a matching document that contributes it. An array leads back only to
documents that have an equal array themselves, not to those that have it as an element. Whatever else leads back, except
null, is among the distinct values. -/
theorem distinct_leadsBack {c : Collection} (keyed : ∀ d ∈ c.documents, d.isWellKeyed = true) (path : String)
    (filter : Document) :
    (∀ v ∈ c.distinct path filter, v.isArray = false → c.LeadsBack path filter v) ∧
      (∀ v : Value, v.isArray = true → (c.LeadsBack path filter v ↔
        ∃ d ∈ c.documents, Document.matchesFilter filter d = true ∧
          ∃ w, d.at? (pathKeys path) = some w ∧ w.same v = true)) ∧
      ∀ v : Value, v.isWellKeyed = true → v.isNull = false → v.isArray = false → c.LeadsBack path filter v →
        v.isIn (c.distinct path filter) = true := by
  refine ⟨?_, ?_, ?_⟩
  · intro v hv single
    obtain ⟨keyedV, listed⟩ := isIn_distinct_of_mem keyed hv
    obtain ⟨d, hd, hm, contributes⟩ := (isIn_distinct_iff keyed keyedV).1 listed
    exact leadsBack_iff.2 ⟨d, hd, hm, meets_of_contributes single contributes⟩
  · intro v isArray
    simp only [leadsBack_iff, meets_array_iff isArray]
  · intro v keyedV notNull single leads
    obtain ⟨d, hd, hm, met⟩ := leadsBack_iff.1 leads
    exact (isIn_distinct_iff keyed keyedV).2 ⟨d, hd, hm, contributes_of_meets single notNull met⟩

/-- The tag that is an array leads back to the second run, where it is the whole array. -/
theorem distinct_leadsBack_tags :
    let runs : Collection :=
      ⟨[[("tags", .array [.array [.string "s3"], .null])], [("tags", .array [.string "s3"])]], numbered⟩
    runs.distinct "tags" [] = [.array [.string "s3"], .null, .string "s3"] ∧
      (∀ v ∈ runs.distinct "tags" [], runs.LeadsBack "tags" [] v) ∧
      ¬ runs.LeadsBack "tags" [] (.string "tagging") := by
  intro runs
  have keyed : ∀ d ∈ runs.documents, d.isWellKeyed = true := by decide
  have listed : runs.distinct "tags" [] = [.array [.string "s3"], .null, .string "s3"] := rfl
  obtain ⟨singles, arrays, back⟩ := distinct_leadsBack keyed "tags" []
  refine ⟨listed, ?_, fun leads => absurd (back _ rfl rfl rfl leads) Bool.false_ne_true⟩
  intro v hv
  cases single : v.isArray
  · exact singles v hv single
  · refine (arrays v single).2 ⟨_, List.mem_cons_of_mem _ List.mem_cons_self, rfl, _, rfl, ?_⟩
    simp only [listed, List.mem_cons, List.not_mem_nil, or_false] at hv
    rcases hv with rfl | rfl | rfl
    · rfl
    · cases single
    · cases single

/-- An array that is only an element of an array is listed and leads back to no document. -/
theorem not_leadsBack_of_nested :
    let nested : Collection := ⟨[[("_id", .string "a"), ("tags", .array [.array [.int 1]])]], numbered⟩
    Value.array [.int 1] ∈ nested.distinct "tags" [] ∧ ¬ nested.LeadsBack "tags" [] (.array [.int 1]) := by
  intro nested
  have listed : nested.distinct "tags" [] = [.array [.int 1]] := rfl
  refine ⟨listed ▸ List.mem_cons_self, ?_⟩
  rintro ⟨d, hd, -, matched⟩
  obtain rfl := List.mem_singleton.1 hd
  exact absurd matched Bool.false_ne_true

end Collection

end BucketBench
