import BucketBench.Proofs.Store.Agreement

set_option autoImplicit false

namespace BucketBench

open Edit (listing)

namespace StoreCall

def isInsertion : StoreCall → Bool
  | .insertOne _ => true
  | _ => false

/-- What a call makes of one stored document, by itself: an update that was answered edits it, nothing else does. -/
def carry (d : Document) : StoreCall × Except Error StoreAnswer → Document
  | (.updateMany filter update, .ok _) => Collection.edited filter (listing update) d
  | _ => d

end StoreCall

namespace Collection

def history (c : Collection) (calls : List StoreCall) : List (StoreCall × Except Error StoreAnswer) :=
  calls.zip (c.performAll calls).1

theorem history_cons (c : Collection) (call : StoreCall) (rest : List StoreCall) :
    c.history (call :: rest) = (call, (c.perform call).1) :: (c.perform call).2.history rest := rfl

theorem performAll_cons_after (c : Collection) (call : StoreCall) (rest : List StoreCall) :
    (c.performAll (call :: rest)).2 = ((c.perform call).2.performAll rest).2 := rfl

theorem performAll_append_after (c : Collection) (front back : List StoreCall) :
    (c.performAll (front ++ back)).2 = ((c.performAll front).2.performAll back).2 := by
  induction front generalizing c with
  | nil => rfl
  | cons call front ih =>
    rw [List.cons_append, performAll_cons_after, ih, performAll_cons_after]

theorem exists_insert_eq (c : Collection) (d : Document) :
    ∃ id fresh, c.insert d = (id, ⟨c.documents ++ [d.insert idField id], fresh⟩) ∧
      (∀ own, d.get? idField = some own → id = own) ∧ (d.isWellKeyed = true → id.isWellKeyed = true) := by
  cases found : d.get? idField with
  | some own =>
    refine ⟨own, c.fresh, ?_, fun v hv => Option.some.inj hv, fun keyed => Document.isWellKeyed_of_get? keyed found⟩
    rw [insert_of_identified c found, Document.insert_of_get? found]
  | none =>
    refine ⟨.string (c.fresh 0), fun n => c.fresh (n + 1), ?_, nofun, fun _ => rfl⟩
    rw [insert, found]

theorem documents_perform_updateMany {c : Collection} {filter update : Document} :
    (c.perform (.updateMany filter update)).2.documents =
      c.documents.map fun d =>
        StoreCall.carry d (.updateMany filter update, (c.perform (.updateMany filter update)).1) := by
  rw [perform]
  rcases h : (updateMany filter update).run c with ⟨fault | summary, after⟩
  · have same := eq_of_updateMany_eq_error h
    simp only [same, StoreCall.carry, List.map_id']
  · obtain ⟨-, -, rfl⟩ := of_updateMany_eq_ok h
    simp only [StoreCall.carry]

/-- A call leaves the documents in their places, and an insertion adds one behind them. -/
theorem documents_perform (c : Collection) (call : StoreCall) :
    ∃ added, (c.perform call).2.documents = c.documents.map (StoreCall.carry · (call, (c.perform call).1)) ++ added ∧
      added.length = if call.isInsertion then 1 else 0 := by
  cases call with
  | insertOne d =>
    obtain ⟨id, fresh, run, -⟩ := c.exists_insert_eq d
    refine ⟨[d.insert idField id], ?_, rfl⟩
    simp only [perform, run, StoreCall.carry, List.map_id']
  | updateMany filter update => exact ⟨[], by rw [documents_perform_updateMany, List.append_nil], rfl⟩
  | _ => exact ⟨[], by simp [perform, StoreCall.carry], rfl⟩

theorem documents_performAll (c : Collection) (calls : List StoreCall) :
    ∃ added, (c.performAll calls).2.documents =
        c.documents.map (fun d => (c.history calls).foldl StoreCall.carry d) ++ added ∧
      added.length = calls.countP StoreCall.isInsertion := by
  induction calls generalizing c with
  | nil => exact ⟨[], by simp [performAll, history], rfl⟩
  | cons call rest ih =>
    obtain ⟨first, stored, length⟩ := c.documents_perform call
    obtain ⟨later, stored', length'⟩ := ih (c.perform call).2
    rw [performAll_cons_after, stored', stored, List.map_append, List.map_map, List.append_assoc, history_cons]
    refine ⟨_, rfl, ?_⟩
    rw [List.length_append, List.length_map, length, length', List.countP_cons]
    omega

theorem size_performAll (c : Collection) (calls : List StoreCall) :
    (c.performAll calls).2.size = c.size + calls.countP StoreCall.isInsertion := by
  obtain ⟨added, stored, length⟩ := c.documents_performAll calls
  rw [size, stored, List.length_append, List.length_map, length, size]

theorem getElem?_performAll {c : Collection} {place : Nat} {d : Document} (h : c.documents[place]? = some d)
    (calls : List StoreCall) :
    (c.performAll calls).2.documents[place]? = some ((c.history calls).foldl StoreCall.carry d) := by
  obtain ⟨added, stored, -⟩ := c.documents_performAll calls
  have inside : place < c.documents.length := (List.getElem?_eq_some_iff.1 h).1
  rw [stored, List.getElem?_append_left (by simpa using inside), List.getElem?_map, h]
  rfl

theorem find_nil (c : Collection) : c.find [] = c.documents := by
  rw [find, List.filter_eq_self]
  exact fun d _ => Document.matchesFilter_nil d

/-- An identifier finds the document that was inserted last with it, whatever kind of value it is. -/
theorem getLast?_find_of_insert {documents : List Document} {d : Document} {id : Value} (keyed : id.isWellKeyed = true)
    (fresh : Nat → String) :
    (find ⟨documents ++ [d.insert idField id], fresh⟩ [(idField, id)]).getLast? = some (d.insert idField id) := by
  have found : Document.matchesFilter [(idField, id)] (d.insert idField id) = true := by
    rw [matchesFilter_singleton, pathKeys_idField, Document.at?_singleton, Document.get?_insert_self]
    exact meets_of_same (Value.same_refl keyed)
  rw [find, List.filter_append, List.filter_cons_of_pos found, List.filter_nil, List.getLast?_concat]

/-- Over any calls a collection grows by one document with each insertion and is listed in its order. A document that is
inserted stands behind the initial ones and those inserted before it, then and after any further calls, which make of it
what their updates make of it alone; and the identifier that was returned for it finds it last. -/
theorem insertions_keep_their_places (c : Collection) :
    (∀ calls, (c.performAll calls).2.size = c.size + calls.countP StoreCall.isInsertion ∧
        (c.performAll calls).2.find [] = (c.performAll calls).2.documents) ∧
      ∀ (before rest : List StoreCall) (d : Document), d.isWellKeyed = true →
        ∃ id next, (c.performAll before).2.perform (.insertOne d) = (.ok (.inserted id), next) ∧
          (∀ own, d.get? idField = some own → id = own) ∧
          (next.find [(idField, id)]).getLast? = some (d.insert idField id) ∧
          (c.performAll (before ++ .insertOne d :: rest)).2.documents[c.size + before.countP StoreCall.isInsertion]? =
            some ((next.history rest).foldl StoreCall.carry (d.insert idField id)) := by
  refine ⟨fun calls => ⟨c.size_performAll calls, find_nil _⟩, ?_⟩
  intro before rest d keyed
  let middle := (c.performAll before).2
  obtain ⟨id, fresh, run, own, keyedId⟩ := middle.exists_insert_eq d
  let next : Collection := ⟨middle.documents ++ [d.insert idField id], fresh⟩
  have answer : middle.perform (.insertOne d) = (.ok (.inserted id), next) := by rw [perform, run]
  have last : next.documents[middle.size]? = some (d.insert idField id) := List.getElem?_concat_length
  refine ⟨id, next, answer, own, getLast?_find_of_insert (keyedId keyed) fresh, ?_⟩
  rw [performAll_append_after, performAll_cons_after, answer, ← c.size_performAll before]
  exact getElem?_performAll last rest

/-- An identifier may be an array, which the filter compares as a whole; the update behind the insertion edits the
document, and the one in front of it fails. -/
theorem insertions_keep_their_places_labs :
    let c := ofDocuments [[("_id", .string "a")]]
    let lab : Document := [("_id", .array [.string "a"]), ("setupname", .string "r2")]
    let before : List StoreCall := [.insertOne [("_id", .null)], .updateMany [] [("$inc", .null)]]
    let rest : List StoreCall := [.updateMany [("setupname", .string "r2")] [("$set", .object [("nodes", .int 6)])]]
    (∃ next, (c.performAll before).2.perform (.insertOne lab) = (.ok (.inserted (.array [.string "a"])), next) ∧
        (next.find [("_id", .array [.string "a"])]).getLast? = some lab) ∧
      (c.performAll (before ++ .insertOne lab :: rest)).2.documents[2]? = some (lab ++ [("nodes", .int 6)]) := by
  intro c lab before rest
  have keyed : lab.isWellKeyed = true := by decide
  obtain ⟨-, inserted⟩ := insertions_keep_their_places c
  obtain ⟨id, next, answer, own, found, place⟩ := inserted before rest lab keyed
  obtain rfl := own _ rfl
  refine ⟨⟨next, answer, found⟩, place.trans ?_⟩
  have stored : next = ⟨[[("_id", .string "a")], [("_id", .null)], lab], numbered⟩ := (congrArg Prod.snd answer).symm
  rw [stored]
  rfl

end Collection

end BucketBench
