import BucketBench.Proofs.Store.Alike
import BucketBench.Proofs.Store.Identifier
import BucketBench.Proofs.Store.Plain

set_option autoImplicit false

/-!
# A server and a collection in memory agree

Over calls that both understand, a server behind a connection and a collection in memory that start from equal documents
answer alike at every step and end in equal documents. What the client and the wire refuse beforehand is an update that
the collection refuses too.
-/

namespace BucketBench

open List (Forall₂)
open Collection (AllAlike)

/-! ## Calls and answers -/

/-- A call that both stores understand: its documents denote maps and are plain but for the operators of an update, an
update is not empty, and a document to be inserted brings its identifier. -/
def StoreCall.IsPortable : StoreCall → Prop
  | .find filter | .count filter | .distinct _ filter => filter.isWellKeyed = true ∧ filter.isPlain = true
  | .updateMany filter update =>
    filter.isWellKeyed = true ∧ filter.isPlain = true ∧ update.isWellKeyed = true ∧ update.isEmpty = false ∧
      ∀ m ∈ update, Wire.hasNul m.1 = false ∧ m.2.isPlain = true
  | .insertOne d => d.isWellKeyed = true ∧ d.isPlain = true ∧ d.contains idField = true

instance : (call : StoreCall) → Decidable call.IsPortable
  | .find _ | .count _ | .distinct _ _ => inferInstanceAs (Decidable (_ ∧ _))
  | .updateMany _ update => inferInstanceAs (Decidable (_ ∧ _ ∧ _ ∧ _ ∧ ∀ m ∈ update, _ ∧ _))
  | .insertOne _ => inferInstanceAs (Decidable (_ ∧ _ ∧ _))

def Edit.writesPlain : Edit → Bool
  | .set path _ => (pathKeys path).all fun key => !isOperator key
  | .unset _ => true

def StoreCall.writesPlain : StoreCall → Bool
  | .updateMany _ update => (Edit.listing update).all Edit.writesPlain
  | _ => true

inductive StoreAnswer.Alike : StoreAnswer → StoreAnswer → Prop where
  | documents {found found' : List Document} (h : AllAlike found found') : Alike (.documents found) (.documents found')
  | number (n : Nat) : Alike (.number n) (.number n)
  | values {found found' : List Value} (h : Forall₂ Value.Alike found found') : Alike (.values found) (.values found')
  | updated (summary : UpdateSummary) : Alike (.updated summary) (.updated summary)
  | inserted {id id' : Value} (h : id.Alike id') : Alike (.inserted id) (.inserted id')

def Collection.performAll (c : Collection) : List StoreCall → List (Except Error StoreAnswer) × Collection
  | [] => ([], c)
  | call :: rest =>
    let (answer, c) := c.perform call
    let (answers, c) := c.performAll rest
    (answer :: answers, c)

def Server.performAll (s : Server) : List StoreCall → List (Except Error StoreAnswer) × Server
  | [] => ([], s)
  | call :: rest =>
    let (answer, s) := s.perform call
    let (answers, s) := s.performAll rest
    (answer :: answers, s)

/-! ## Collections with alike documents -/

namespace Collection

variable {c c' : Collection} {call : StoreCall}

theorem insert_of_identified {d : Document} {id : Value} (c : Collection) (h : d.get? idField = some id) :
    c.insert d = (id, ⟨c.documents ++ [d], c.fresh⟩) := by
  rw [insert, h]

theorem alike_perform (portable : call.IsPortable) (h : AllAlike c.documents c'.documents) :
    Likewise StoreAnswer.Alike (c.perform call).1 (c'.perform call).1 ∧
      AllAlike (c.perform call).2.documents (c'.perform call).2.documents := by
  cases call with
  | find filter => exact ⟨.ok (.documents (alike_find portable.1 h)), h⟩
  | count filter =>
    have found := (alike_find portable.1 h).length_eq
    refine ⟨?_, h⟩
    rw [perform, perform, count, count, found]
    exact .ok (.number _)
  | distinct path filter => exact ⟨.ok (.values (alike_distinct portable.1 path h)), h⟩
  | updateMany filter update =>
    obtain ⟨outcomes, stored⟩ := alike_updateMany portable.1 portable.2.2.1 h
    rw [perform, perform]
    generalize (updateMany filter update).run c = r, (updateMany filter update).run c' = r' at outcomes stored
    obtain ⟨outcome, after⟩ := r
    obtain ⟨outcome', after'⟩ := r'
    cases outcomes with
    | error fault fault' => exact ⟨.error _ _, stored⟩
    | ok same =>
      cases same
      exact ⟨.ok (.updated _), stored⟩
  | insertOne d =>
    obtain ⟨id, found⟩ := Option.isSome_iff_exists.1 portable.2.2
    have alike : d.Alike d := .refl portable.1
    rw [perform, perform, insert_of_identified c found, insert_of_identified c' found]
    exact ⟨.ok (.inserted (.refl (Document.isWellKeyed_of_get? portable.1 found))), List.rel_append h (.cons alike .nil)⟩

theorem exists_field_of_mem_listing {update : Document} {path : String} {value : Value}
    (h : .set path value ∈ Edit.listing update) :
    ∃ m ∈ update, ∃ fields : Document, m.2 = .object fields ∧ (path, value) ∈ fields := by
  obtain ⟨m, hm, h⟩ := List.mem_flatMap.1 h
  split at h
  · rename_i fields hf
    obtain ⟨field, hfield, e⟩ := List.mem_map.1 h
    unfold Edit.ofField at e
    split at e
    · cases e
      exact ⟨m, hm, fields, hf, hfield⟩
    · cases e
  · simp at h

theorem isPlain_of_mem_listing {update : Document} (plain : ∀ m ∈ update, m.2.isPlain = true) {e : Edit}
    (he : e ∈ Edit.listing update) (writes : e.writesPlain = true) : e.IsPlain := by
  cases e with
  | unset path => trivial
  | set path value =>
    obtain ⟨m, hm, fields, operand, field⟩ := exists_field_of_mem_listing he
    have fieldsPlain : (Value.object fields).isPlain = true := operand ▸ plain m hm
    obtain ⟨pathPlain, valuePlain⟩ := (Document.isPlain_iff fields).1 fieldsPlain _ field
    refine ⟨valuePlain, fun key hk => ?_⟩
    have noNul := hasNul_of_mem_pathKeys (Wire.hasNul_of_isPlainKey pathPlain) hk
    rw [isPlainKey, noNul, List.all_eq_true.1 writes key hk]
    rfl

theorem isPlain_perform (plain : c.IsPlain) (portable : call.IsPortable) (writes : call.writesPlain = true) :
    (c.perform call).2.IsPlain := by
  cases call with
  | updateMany filter update =>
    rw [perform_updateMany]
    have operands : ∀ m ∈ update, m.2.isPlain = true := fun m hm => (portable.2.2.2.2 m hm).2
    exact isPlain_updateMany plain fun e he => isPlain_of_mem_listing operands he (List.all_eq_true.1 writes e he)
  | insertOne d =>
    obtain ⟨id, found⟩ := Option.isSome_iff_exists.1 portable.2.2
    rw [perform, insert_of_identified c found]
    intro e he
    rcases List.mem_append.1 he with he | he
    · exact plain e he
    · rw [List.mem_singleton.1 he]
      exact portable.2.1
  | _ => exact plain

end Collection

/-! ## What a server makes of a call -/

namespace Server

variable {s : Server} {call : StoreCall}

/-- The connection carries unchanged what the server has to send back. -/
structure Ships (s : Server) : Prop where
  documents : ∀ d ∈ s.collection.documents, Wire.document? d = some d
  values : ∀ path filter, ∀ v ∈ s.collection.distinct path filter, Wire.value? v = some v

theorem ships_of_isPlain (plain : s.collection.IsPlain) : s.Ships where
  documents d hd := Wire.document?_of_isPlain (plain d hd)
  values _ _ _ hv := Wire.value?_of_isPlain (Collection.isPlain_of_mem_distinct plain hv)

theorem wire_eq_ok {d : Document} (h : Wire.document? d = some d) : wire d = .ok d := by
  rw [wire, h]

theorem mapM_wire {ds : List Document} (h : ∀ d ∈ ds, Wire.document? d = some d) : ds.mapM wire = .ok ds := by
  induction ds with
  | nil => rfl
  | cons d rest ih =>
    rw [List.mapM_cons, wire_eq_ok (h d List.mem_cons_self), ih fun e he => h e (List.mem_cons_of_mem _ he)]
    rfl

theorem accept_of_willing (willing : s.refuses = []) (command : ServerCommand) : s.accept command = .ok () := by
  rw [accept, willing]
  rfl

theorem wire_eq_ok_of_isPlain {d : Document} (plain : d.isPlain = true) : wire d = .ok d :=
  wire_eq_ok (Wire.document?_of_isPlain plain)

theorem find_eq (willing : s.refuses = []) (ships : s.Ships) {filter : Document} (plain : filter.isPlain = true) :
    s.find filter = .ok (s.collection.find filter) := by
  have shipped : (s.collection.find filter).mapM wire = .ok (s.collection.find filter) :=
    mapM_wire fun d hd => ships.documents d (List.mem_of_mem_filter hd)
  rw [find, wire_eq_ok_of_isPlain plain, accept_of_willing willing]
  exact shipped

theorem count_eq (willing : s.refuses = []) {filter : Document} (plain : filter.isPlain = true) :
    s.count filter = .ok (s.collection.count filter) := by
  rw [count, wire_eq_ok_of_isPlain plain, accept_of_willing willing]
  rfl

theorem distinct_eq (willing : s.refuses = []) (ships : s.Ships) (path : String) {filter : Document}
    (plain : filter.isPlain = true) : s.distinct path filter = .ok (s.collection.distinct path filter) := by
  have shipped := Wire.items?_of_each (ships.values path filter)
  rw [distinct, wire_eq_ok_of_isPlain plain, accept_of_willing willing]
  simp only [bind, Except.bind, shipped]
  rfl

theorem insertOne_eq (willing : s.refuses = []) {d : Document} {id : Value} (plain : d.isPlain = true)
    (found : d.get? idField = some id) :
    s.insertOne d = .ok (id, { s with collection := (s.collection.insert d).2 }) := by
  have own : s.named d = (d, s.collection.fresh) := by
    rw [named, Document.contains, found]
    rfl
  rw [insertOne, wire_eq_ok_of_isPlain plain, accept_of_willing willing, Collection.insert_of_identified _ found]
  simp only [bind, Except.bind, own, Collection.insert_of_identified _ found]
  rfl

/-- The steps of an update: it is refused as a spelled value, then for its first key, then by the collection. -/
theorem updateMany_eq_ite (willing : s.refuses = []) {filter update : Document} (plain : filter.isPlain = true)
    (carried : ∀ m ∈ update, Wire.hasNul m.1 = false ∧ m.2.isPlain = true) :
    s.updateMany filter update =
      if (Wire.spelled? update).isSome || !startsWithOperator update then .error refused
      else match (Collection.updateMany filter update).run s.collection with
        | (.ok summary, collection) => .ok (summary, { s with collection })
        | (.error _, _) => .error refused := by
  have members : Wire.members? update = some update :=
    Wire.members?_of_each fun m hm => ⟨(carried m hm).1, Wire.value?_of_isPlain (carried m hm).2⟩
  have wired : wire update = if (Wire.spelled? update).isSome then .error refused else .ok update := by
    rw [wire, Wire.document?, members]
    cases h : Wire.spelled? update <;> simp [h]
  rw [updateMany, wire_eq_ok_of_isPlain plain, wired, accept_of_willing willing]
  cases (Wire.spelled? update).isSome with
  | true => rfl
  | false =>
    cases operator : startsWithOperator update with
    | false => simp [bind, Except.bind, operator, throw, throwThe, MonadExceptOf.throw]
    | true =>
      simp only [bind, Except.bind, operator, Bool.not_true, Bool.or_false, Bool.false_eq_true, if_false]
      rfl

/-- What the client and the wire refuse, the collection refuses as well. -/
theorem updateMany_eq (willing : s.refuses = []) {filter update : Document} (plain : filter.isPlain = true)
    (nonempty : update.isEmpty = false) (carried : ∀ m ∈ update, Wire.hasNul m.1 = false ∧ m.2.isPlain = true) :
    s.updateMany filter update =
      match (Collection.updateMany filter update).run s.collection with
      | (.ok summary, collection) => .ok (summary, { s with collection })
      | (.error _, _) => .error refused := by
  rw [updateMany_eq_ite willing plain carried]
  by_cases acceptable : Edit.Acceptable update
  -- the first key of such an update is an operator, and none of the operators spells a database value
  · have unspelled : Wire.spelled? update = none := by
      cases h : Wire.spelled? update with
      | none => rfl
      | some v =>
        obtain ⟨key, operand, rfl, -, notSet, notUnset⟩ := Wire.exists_key_of_spelled h
        exact ((acceptable _ List.mem_cons_self).1.elim notSet notUnset).elim
    have operator : startsWithOperator update = true := by
      obtain ⟨⟨key, operand⟩, rest, rfl⟩ := List.exists_cons_of_ne_nil (List.isEmpty_eq_false_iff.1 nonempty)
      obtain rfl | rfl : key = "$set" ∨ key = "$unset" := (acceptable _ List.mem_cons_self).1
      · rfl
      · rfl
    rw [unspelled, operator]
    rfl
  · obtain ⟨fault, unaccepted⟩ := Edit.ofUpdate_of_not_acceptable acceptable
    have fails : (Collection.updateMany filter update).run s.collection = (.error fault, s.collection) := by
      rw [Collection.run_updateMany, unaccepted]
    rw [fails, ite_self]

theorem perform_eq (willing : s.refuses = []) (ships : s.Ships) (portable : call.IsPortable) :
    Likewise Eq (s.collection.perform call).1 (s.perform call).1 ∧
      (s.perform call).2 = { s with collection := (s.collection.perform call).2 } := by
  cases call with
  | find filter =>
    rw [perform, find_eq willing ships portable.2]
    exact ⟨.ok rfl, rfl⟩
  | count filter =>
    rw [perform, count_eq willing portable.2]
    exact ⟨.ok rfl, rfl⟩
  | distinct path filter =>
    rw [perform, distinct_eq willing ships path portable.2]
    exact ⟨.ok rfl, rfl⟩
  | updateMany filter update =>
    rw [perform, updateMany_eq willing portable.2.1 portable.2.2.2.1 portable.2.2.2.2, Collection.perform]
    rcases h : (Collection.updateMany filter update).run s.collection with ⟨fault | summary, after⟩
    · obtain rfl := Collection.eq_of_updateMany_eq_error h
      exact ⟨.error _ _, rfl⟩
    · exact ⟨.ok rfl, rfl⟩
  | insertOne d =>
    obtain ⟨id, found⟩ := Option.isSome_iff_exists.1 portable.2.2
    rw [perform, insertOne_eq willing portable.2.1 found, Collection.perform, Collection.insert_of_identified _ found]
    exact ⟨.ok rfl, rfl⟩

/-! ## Runs -/

theorem performAll_cons (s : Server) (call : StoreCall) (rest : List StoreCall) :
    s.performAll (call :: rest) =
      ((s.perform call).1 :: ((s.perform call).2.performAll rest).1, ((s.perform call).2.performAll rest).2) := rfl

theorem isPlain_performAll {calls : List StoreCall} (willing : s.refuses = []) (plain : s.collection.IsPlain)
    (portable : ∀ call ∈ calls, call.IsPortable) (writes : ∀ call ∈ calls, call.writesPlain = true) :
    (s.performAll calls).2.collection.IsPlain := by
  induction calls generalizing s with
  | nil => exact plain
  | cons call rest ih =>
    rw [List.forall_mem_cons] at portable writes
    have next := (perform_eq willing (ships_of_isPlain plain) portable.1).2
    rw [performAll_cons, next]
    exact ih willing (Collection.isPlain_perform plain portable.1 writes.1) portable.2 writes.2

theorem performAll_agrees_of_ships {c : Collection} {calls : List StoreCall} (willing : s.refuses = [])
    (start : AllAlike c.documents s.collection.documents) (portable : ∀ call ∈ calls, call.IsPortable)
    (ships : ∀ n, (s.performAll (calls.take n)).2.Ships) :
    Forall₂ (Likewise StoreAnswer.Alike) (c.performAll calls).1 (s.performAll calls).1 ∧
      AllAlike (c.performAll calls).2.documents (s.performAll calls).2.collection.documents := by
  induction calls generalizing c s with
  | nil => exact ⟨.nil, start⟩
  | cons call rest ih =>
    rw [List.forall_mem_cons] at portable
    obtain ⟨answer, documents⟩ := Collection.alike_perform portable.1 start
    obtain ⟨answer', next⟩ := perform_eq willing (ships 0) portable.1
    -- the states after this call are the states of a run of the rest
    have later : ∀ n, ((s.perform call).2.performAll (rest.take n)).2.Ships := fun n => ships (n + 1)
    rw [next] at later
    obtain ⟨answers, ends⟩ := ih (s := { s with collection := (s.collection.perform call).2 }) willing documents
      portable.2 later
    rw [performAll_cons, next]
    exact ⟨.cons (answer.trans_eq answer') answers, ends⟩

/-- A server that carries out every command and a collection in memory, started from equal documents, agree over every
run of calls that both understand: at each step two equal answers or two errors, and equal documents in the end,
whatever the order of members. All that is asked of the connection is that it carries unchanged what the server sends
back. It does so whenever no stored document is spelled like a database value, and so throughout a run that starts from
plain documents, unless a path that is set has a key of its own with a dollar sign in front. -/
theorem performAll_agrees {c : Collection} {s : Server} {calls : List StoreCall} (willing : s.refuses = [])
    (start : AllAlike c.documents s.collection.documents) (portable : ∀ call ∈ calls, call.IsPortable) :
    ((∀ n, (s.performAll (calls.take n)).2.Ships) →
      Forall₂ (Likewise StoreAnswer.Alike) (c.performAll calls).1 (s.performAll calls).1 ∧
        AllAlike (c.performAll calls).2.documents (s.performAll calls).2.collection.documents) ∧
    (s.collection.IsPlain → (∀ call ∈ calls, call.writesPlain = true) → ∀ n, (s.performAll (calls.take n)).2.Ships) := by
  refine ⟨performAll_agrees_of_ships willing start portable, fun plain writes n => ships_of_isPlain ?_⟩
  have some : ∀ call ∈ calls.take n, call.IsPortable ∧ call.writesPlain = true := by
    intro call h
    have mem := List.mem_of_mem_take h
    exact ⟨portable call mem, writes call mem⟩
  exact isPlain_performAll willing plain (fun call h => (some call h).1) fun call h => (some call h).2

/-! ## A run with an update that is refused -/

section Sample

def sampleMemory : Collection := ⟨[[("_id", .int 1), ("a", .array [.int 2])]], Collection.numbered⟩

def sampleServer : Server :=
  ⟨⟨[[("a", .array [.int 2]), ("_id", .int 1)]], fun n => Collection.numbered (n + 7)⟩, []⟩

def sampleCalls : List StoreCall :=
  [.updateMany [] [("$set", .object [("b.c", .string "x")])], .updateMany [] [("b", .null)],
   .insertOne [("_id", .int 2)], .find [("a", .int 2)], .distinct "_id" []]

theorem performAll_agrees_sample :
    Forall₂ (Likewise StoreAnswer.Alike) (sampleMemory.performAll sampleCalls).1 (sampleServer.performAll sampleCalls).1 ∧
      AllAlike (sampleMemory.performAll sampleCalls).2.documents
        (sampleServer.performAll sampleCalls).2.collection.documents := by
  have start : AllAlike sampleMemory.documents sampleServer.collection.documents :=
    .cons ⟨by decide, by decide, by decide⟩ .nil
  have portable : ∀ call ∈ sampleCalls, call.IsPortable := by decide +kernel
  have plain : sampleServer.collection.IsPlain := by
    unfold Collection.IsPlain
    decide +kernel
  have writes : ∀ call ∈ sampleCalls, call.writesPlain = true := by decide +kernel
  obtain ⟨agree, ships⟩ := performAll_agrees (s := sampleServer) rfl start portable
  exact agree (ships plain writes)

end Sample

end Server

end BucketBench
