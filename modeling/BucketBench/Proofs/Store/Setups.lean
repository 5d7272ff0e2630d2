import BucketBench.Proofs.Store.Update
import BucketBench.Store.Setups
import Mathlib.Data.List.Induction

set_option autoImplicit false

/-!
# Setups by name

A query for a name finds the setups that have it as their text, and those that have an array with it. Arrays are listed
under longer names; so what is listed under the name itself is the last setup that has it as its text.
-/

namespace BucketBench

namespace Json

theorem length_escape_pos (c : Char) : 0 < (escape c).length := by
  unfold escape
  split
  · exact Nat.succ_pos _
  · split
    · exact Nat.succ_pos _
    · split
      · exact Nat.succ_pos _
      · split <;> exact Nat.succ_pos _

theorem length_lt_quote (s : String) : s.toList.length < (quote s).length := by
  have each : s.toList.length ≤ (s.toList.flatMap escape).length := by
    induction s.toList with
    | nil => exact Nat.le_refl 0
    | cons c rest ih =>
      have here := length_escape_pos c
      rw [List.flatMap_cons, List.length_append, List.length_cons]
      omega
  simp only [quote, List.length_cons, List.length_append]
  omega

theorem length_compactItems_of_mem {v : Value} {items : List Value} (h : v ∈ items) (first : Bool) :
    (compactChars v).length ≤ (compactItems first items).length := by
  induction items generalizing first with
  | nil => cases h
  | cons w rest ih =>
    simp only [compactItems, List.length_append]
    rcases List.mem_cons.1 h with rfl | h
    · omega
    · have later := ih h false
      omega

/-- The text of an array is longer than any text in it. -/
theorem compact_array_ne {s : String} {items : List Value} (h : .string s ∈ items) : compact (.array items) ≠ s := by
  intro same
  have inside := length_compactItems_of_mem h true
  have quoted := length_lt_quote s
  have length : (compact (.array items)).toList.length = s.toList.length := by rw [same]
  simp only [compact, String.toList_ofList, compactChars, List.length_cons] at length inside
  omega

end Json

namespace Value

theorem same_string_iff {v : Value} {s : String} : v.same (.string s) = true ↔ v = .string s := by
  cases v <;> simp [same]

theorem isIn_string_iff {s : String} {items : List Value} : (Value.string s).isIn items = true ↔ .string s ∈ items := by
  simp [isIn, same_string_iff]

end Value

namespace Setups

theorem pathKeys_nameField : pathKeys nameField = [nameField] := by decide

theorem matches_name_iff {s : String} {d : Document} :
    Document.matchesFilter [(nameField, .string s)] d = true ↔
      d.get? nameField = some (.string s) ∨ ∃ items, d.get? nameField = some (.array items) ∧ .string s ∈ items := by
  rw [Collection.matchesFilter_singleton, pathKeys_nameField, Document.at?_singleton]
  cases found : d.get? nameField with
  | none => simp [meets, Value.isNull]
  | some v =>
    cases v with
    | array items => simp [meets, Value.isArray, Value.isIn_string_iff]
    | _ => simp [meets, Value.same_string_iff]

theorem get?_shown {d : Document} (nodup : d.keys.Nodup) (dropId : Bool) :
    (shown dropId d).get? nameField = d.get? nameField := by
  unfold shown
  split
  · have other : idField ≠ nameField := by decide
    rw [Document.get?_remove idField nameField nodup, if_neg other]
  · rfl

theorem nameOf?_shown {d : Document} (nodup : d.keys.Nodup) (dropId : Bool) : nameOf? (shown dropId d) = nameOf? d := by
  unfold nameOf?
  rw [get?_shown nodup]

theorem get?_addTo (dropId : Bool) (listing d : Document) (name : String) :
    (addTo dropId listing d).get? name =
      if nameOf? (shown dropId d) = some name then some (.object (shown dropId d)) else listing.get? name := by
  unfold addTo
  cases found : nameOf? (shown dropId d) with
  | none => simp [found]
  | some other => simp [found, Document.get?_insert]

theorem get?_foldl_addTo_of_unnamed {dropId : Bool} {documents : List Document} {name : String}
    (unnamed : ∀ e ∈ documents, nameOf? (shown dropId e) ≠ some name) (listing : Document) :
    (documents.foldl (addTo dropId) listing).get? name = listing.get? name := by
  induction documents generalizing listing with
  | nil => rfl
  | cons e rest ih =>
    have first : nameOf? (shown dropId e) ≠ some name := unnamed e List.mem_cons_self
    have later := ih fun e he => unnamed e (List.mem_cons_of_mem _ he)
    rw [List.foldl_cons, later, get?_addTo, if_neg first]

theorem get?_byName_of_last {dropId : Bool} {front back : List Document} {d : Document} {name : String}
    (named : nameOf? (shown dropId d) = some name) (last : ∀ e ∈ back, nameOf? (shown dropId e) ≠ some name) :
    (byName dropId (front ++ d :: back)).get? name = some (.object (shown dropId d)) := by
  rw [byName, List.foldl_append, List.foldl_cons, get?_foldl_addTo_of_unnamed last, get?_addTo, if_pos named]

theorem nameOf?_ne_of_matches {s : String} {d : Document} (found : Document.matchesFilter [(nameField, .string s)] d = true)
    (other : d.get? nameField ≠ some (.string s)) : nameOf? d ≠ some s := by
  obtain ⟨items, array, mem⟩ := (matches_name_iff.1 found).resolve_left other
  intro named
  simp only [nameOf?, array, Option.some.injEq] at named
  exact Json.compact_array_ne mem named

def OnlyNamed (documents : List Document) (s : String) (d : Document) : Prop :=
  ∃ front back, documents = front ++ d :: back ∧ d.get? nameField = some (.string s) ∧
    ∀ e ∈ front ++ back, e.get? nameField ≠ some (.string s)

theorem OnlyNamed.mem {documents : List Document} {s : String} {d : Document} (only : OnlyNamed documents s d) :
    d ∈ documents := by
  obtain ⟨front, back, rfl, -, -⟩ := only
  exact List.mem_append_right _ List.mem_cons_self

theorem OnlyNamed.matches {documents : List Document} {s : String} {d : Document} (only : OnlyNamed documents s d) :
    Document.matchesFilter [(nameField, .string s)] d = true := by
  obtain ⟨-, -, -, named, -⟩ := only
  exact matches_name_iff.2 (Or.inl named)

/-- A change of documents that keeps their names keeps the only one of a name. -/
theorem OnlyNamed.map {documents : List Document} {s : String} {d : Document} (only : OnlyNamed documents s d)
    {f : Document → Document} (kept : ∀ e ∈ documents, (f e).get? nameField = e.get? nameField) :
    OnlyNamed (documents.map f) s (f d) := by
  obtain ⟨front, back, rfl, named, others⟩ := only
  refine ⟨front.map f, back.map f, by rw [List.map_append, List.map_cons], ?_, ?_⟩
  · rw [kept d (by simp)]
    exact named
  · rw [← List.map_append]
    intro e he
    obtain ⟨before, hb, rfl⟩ := List.mem_map.1 he
    have mem : before ∈ front ++ d :: back := by
      rcases List.mem_append.1 hb with hb | hb
      · exact List.mem_append_left _ hb
      · exact List.mem_append_right _ (List.mem_cons_of_mem _ hb)
    rw [kept before mem]
    exact others before hb

section LastNamed

def LastNamed (dropId : Bool) (documents : List Document) (name : String) (d : Document) : Prop :=
  ∃ front back, documents = front ++ d :: back ∧ nameOf? (shown dropId d) = some name ∧
    ∀ e ∈ back, nameOf? (shown dropId e) ≠ some name

variable {dropId : Bool} {documents : List Document} {name : String} {d : Document}

theorem LastNamed.mem (h : LastNamed dropId documents name d) : d ∈ documents := by
  obtain ⟨front, back, rfl, -, -⟩ := h
  exact List.mem_append_right _ List.mem_cons_self

theorem LastNamed.named (h : LastNamed dropId documents name d) : nameOf? (shown dropId d) = some name := by
  obtain ⟨front, back, -, named, -⟩ := h
  exact named

theorem LastNamed.filter (h : LastNamed dropId documents name d) {p : Document → Bool} (kept : p d = true) :
    LastNamed dropId (documents.filter p) name d := by
  obtain ⟨front, back, rfl, named, last⟩ := h
  refine ⟨front.filter p, back.filter p, ?_, named, fun e he => last e (List.mem_of_mem_filter he)⟩
  rw [List.filter_append, List.filter_cons_of_pos kept]

theorem byName_concat (dropId : Bool) (documents : List Document) (d : Document) :
    byName dropId (documents ++ [d]) = addTo dropId (byName dropId documents) d := by
  rw [byName, List.foldl_append]
  rfl

/-- A listing shows under a name the last document of that name, and nothing else. -/
theorem get?_byName_eq_some_iff {v : Value} :
    (byName dropId documents).get? name = some v ↔
      ∃ d, LastNamed dropId documents name d ∧ v = .object (shown dropId d) := by
  constructor
  · induction documents using List.reverseRecOn with
    | nil => exact nofun
    | append_singleton documents e ih =>
      rw [byName_concat, get?_addTo]
      intro found
      by_cases here : nameOf? (shown dropId e) = some name
      · rw [if_pos here] at found
        exact ⟨e, ⟨documents, [], rfl, here, nofun⟩, (Option.some.inj found).symm⟩
      · rw [if_neg here] at found
        obtain ⟨d, ⟨front, back, rfl, named, last⟩, rfl⟩ := ih found
        refine ⟨d, ⟨front, back ++ [e], ?_, named, ?_⟩, rfl⟩
        · rw [List.append_assoc, List.cons_append]
        · intro other mem
          rcases List.mem_append.1 mem with mem | mem
          · exact last other mem
          · rwa [List.mem_singleton.1 mem]
  · rintro ⟨d, ⟨front, back, rfl, named, last⟩, rfl⟩
    exact get?_byName_of_last named last

theorem isWellKeyed_shown (keyed : d.isWellKeyed = true) (dropId : Bool) : (shown dropId d).isWellKeyed = true := by
  unfold shown
  split
  · exact Document.isWellKeyed_remove idField keyed
  · exact keyed

theorem isWellKeyed_byName (keyed : ∀ d ∈ documents, d.isWellKeyed = true) (dropId : Bool) :
    (byName dropId documents).isWellKeyed = true := by
  induction documents using List.reverseRecOn with
  | nil => rfl
  | append_singleton documents e ih =>
    have before := ih fun d hd => keyed d (List.mem_append_left _ hd)
    have shownKeyed := isWellKeyed_shown (keyed e (by simp)) dropId
    rw [byName_concat, addTo]
    split
    · exact Document.isWellKeyed_insert _ before shownKeyed
    · exact before

end LastNamed

/-- Among the setups that a query for the name finds, the only one of the name is listed under it. -/
theorem OnlyNamed.lastNamed {documents : List Document} {s : String} {d : Document}
    (keyed : ∀ d ∈ documents, d.isWellKeyed = true) (only : OnlyNamed documents s d) (dropId : Bool) :
    LastNamed dropId (documents.filter (Document.matchesFilter [(nameField, .string s)])) s d := by
  have found := only.matches
  obtain ⟨front, back, rfl, named, others⟩ := only
  refine ⟨front.filter _, back.filter _, by rw [List.filter_append, List.filter_cons_of_pos found], ?_, ?_⟩
  · have nodup : d.keys.Nodup := Document.nodup_keys (keyed d (by simp))
    rw [nameOf?_shown nodup]
    simp only [nameOf?, named]
  · intro e he
    obtain ⟨mem, found⟩ := List.mem_filter.1 he
    have nodup : e.keys.Nodup := Document.nodup_keys (keyed e (by simp [mem]))
    rw [nameOf?_shown nodup]
    exact nameOf?_ne_of_matches found (others e (List.mem_append_right _ mem))

end Setups

end BucketBench
