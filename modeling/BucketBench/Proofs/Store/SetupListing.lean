import BucketBench.Proofs.Store.Distinct
import BucketBench.Proofs.Store.Setups
import BucketBench.Store.Call

set_option autoImplicit false

namespace BucketBench

namespace Setups

def isNamed (d : Document) (name : String) : Bool := nameOf? d == some name

theorem isNamed_iff {d : Document} {name : String} : isNamed d name = true ↔ nameOf? d = some name := beq_iff_eq

def firstNamed (documents : List Document) (name : String) : Nat := documents.findIdx (isNamed · name)

structure NamesInOrder (documents : List Document) (names : List String) : Prop where
  mem : ∀ name, name ∈ names ↔ ∃ d ∈ documents, nameOf? d = some name
  ordered : names.Pairwise fun a b => firstNamed documents a < firstNamed documents b

namespace NamesInOrder

variable {documents : List Document} {names : List String} {name : String} {e : Document}

theorem nodup (h : NamesInOrder documents names) : names.Nodup := by
  refine h.ordered.imp ?_
  rintro a b before rfl
  exact Nat.lt_irrefl _ before

theorem seen (h : NamesInOrder documents names) (name : String) (mem : name ∈ names) :
    ∃ d ∈ documents, isNamed d name = true := by
  obtain ⟨d, hd, named⟩ := (h.mem name).1 mem
  exact ⟨d, hd, isNamed_iff.2 named⟩

theorem mem_concat (h : NamesInOrder documents names) (name : String) :
    (∃ d ∈ documents ++ [e], nameOf? d = some name) ↔ name ∈ names ∨ nameOf? e = some name := by
  simp only [List.mem_append, List.mem_singleton, or_and_right, exists_or, exists_eq_left, h.mem name]

/-- A document without a name, or with one that is known, adds none. -/
theorem of_known (h : NamesInOrder documents names) (known : ∀ name, nameOf? e = some name → name ∈ names) :
    NamesInOrder (documents ++ [e]) names where
  mem name := by
    rw [h.mem_concat]
    exact ⟨.inl, fun found => found.elim id (known name)⟩
  ordered := pairwise_findIdx_append isNamed h.seen h.ordered [e]

theorem of_new (h : NamesInOrder documents names) (named : nameOf? e = some name) (new : name ∉ names) :
    NamesInOrder (documents ++ [e]) (names ++ [name]) where
  mem other := by
    rw [h.mem_concat, named, List.mem_append, List.mem_singleton, Option.some.injEq, eq_comm (a := name)]
  ordered := by
    have unseen : ∀ d ∈ documents, isNamed d name = false := fun d hd => beq_eq_false_iff_ne.2 fun found =>
      new ((h.mem name).2 ⟨d, hd, found⟩)
    exact pairwise_findIdx_concat isNamed h.seen h.ordered unseen (isNamed_iff.2 named)

end NamesInOrder

theorem namesInOrder_byName {documents : List Document} (maps : ∀ d ∈ documents, d.keys.Nodup) (dropId : Bool) :
    NamesInOrder documents (byName dropId documents).keys := by
  induction documents using List.reverseRecOn with
  | nil => exact ⟨fun _ => by simp [byName, Document.keys], .nil⟩
  | append_singleton documents e ih =>
    have before := ih fun d hd => maps d (List.mem_append_left _ hd)
    have name := nameOf?_shown (maps e (by simp)) dropId
    rw [byName_concat, addTo, name]
    cases named : nameOf? e with
    | none => exact before.of_known (by simp [named])
    | some n =>
      by_cases known : n ∈ (byName dropId documents).keys
      · simp only [Document.keys_insert_of_mem _ known]
        exact before.of_known fun other same => Option.some.inj (named.symm.trans same) ▸ known
      · have appended := before.of_new named known
        simpa [Document.insert_of_not_mem _ known, Document.keys] using appended

/-- Documents are listed by name: every name once, in the order of first appearance, and under it the last document of
that name, whole or without its identifier. -/
structure ListsByName (dropId : Bool) (found : List Document) (listing : Document) : Prop where
  names : NamesInOrder found listing.keys
  once : listing.keys.Nodup
  last : ∀ name v, listing.get? name = some v ↔ ∃ front d back, found = front ++ d :: back ∧ nameOf? d = some name ∧
    (∀ e ∈ back, nameOf? e ≠ some name) ∧ v = .object (shown dropId d)
  whole : dropId = false → ∀ d ∈ found, shown dropId d = d
  bare : dropId = true → ∀ d ∈ found, (shown dropId d).Perm (d.filter (·.1 ≠ idField))

theorem get?_byName_iff {documents : List Document} (maps : ∀ d ∈ documents, d.keys.Nodup) (dropId : Bool) (name : String)
    (v : Value) :
    (byName dropId documents).get? name = some v ↔
      ∃ front d back, documents = front ++ d :: back ∧ nameOf? d = some name ∧ (∀ e ∈ back, nameOf? e ≠ some name) ∧
        v = .object (shown dropId d) := by
  have same : ∀ d ∈ documents, nameOf? (shown dropId d) = nameOf? d := fun d hd => nameOf?_shown (maps d hd) dropId
  rw [get?_byName_eq_some_iff]
  constructor
  · rintro ⟨d, ⟨front, back, rfl, named, last⟩, rfl⟩
    refine ⟨front, d, back, rfl, by rwa [same d (by simp)] at named, fun e he => ?_, rfl⟩
    have later := last e he
    rwa [same e (by simp [he])] at later
  · rintro ⟨front, d, back, rfl, named, last, rfl⟩
    refine ⟨d, ⟨front, back, rfl, by rwa [same d (by simp)], fun e he => ?_⟩, rfl⟩
    rw [same e (by simp [he])]
    exact last e he

theorem listsByName_byName {documents : List Document} (maps : ∀ d ∈ documents, d.keys.Nodup) (dropId : Bool) :
    ListsByName dropId documents (byName dropId documents) where
  names := namesInOrder_byName maps dropId
  once := (namesInOrder_byName maps dropId).nodup
  last := get?_byName_iff maps dropId
  whole kept d _ := by rw [kept, shown, if_neg Bool.false_ne_true]
  bare dropped d hd := by
    rw [dropped, shown, if_pos rfl]
    exact Document.remove_perm_filter idField (maps d hd)

/-- A query to a collection finds the documents that match, leaves the collection as it is, and what it finds is listed
by name. -/
theorem find_listed_by_name {c : Collection} (maps : ∀ d ∈ c.documents, d.keys.Nodup) (query : Document) (dropId : Bool) :
    ∃ found, found = c.documents.filter (Document.matchesFilter query) ∧
      c.perform (.find query) = (.ok (.documents found), c) ∧ ListsByName dropId found (byName dropId found) :=
  ⟨c.find query, rfl, rfl, listsByName_byName (fun d hd => maps d (List.mem_of_mem_filter hd)) dropId⟩

/-- The number 5 and the text `5` are one name: it stands first and shows the second setup. -/
theorem find_listed_by_name_of_number :
    ∃ listing, ListsByName true
        [[("_id", .int 1), ("setupname", .int 5)], [("setupname", .string "a")], [("setupname", .string "5")]] listing ∧
      listing.keys = ["5", "a"] ∧ listing.get? "5" = some (.object [("setupname", .string "5")]) := by
  let labs : List Document :=
    [[("_id", .int 1), ("setupname", .int 5)], [("setupname", .string "a")], [("setupname", .string "5")]]
  have maps : ∀ d ∈ (Collection.mk labs Collection.numbered).documents, d.keys.Nodup := by decide
  obtain ⟨found, rfl, -, listed⟩ := find_listed_by_name maps [] true
  exact ⟨_, listed, by decide, by rfl⟩

end Setups

end BucketBench
