import Mathlib
import BucketBench.Command.Run
import BucketBench.Proofs.Command.Assignment
import BucketBench.Proofs.Json.Pointer
import BucketBench.Proofs.Store.Update
import BucketBench.Proofs.World.Timestamp
import BucketBench.Store.TimingDecoder

set_option autoImplicit false

namespace BucketBench

namespace TimingRecord

def fieldNames : List String := ["build", "test", "operation", "duration_secs", "result", "recorded_at"]

theorem keys_ownFields (r : TimingRecord) : r.ownFields.keys = fieldNames := rfl

structure Separate (r : TimingRecord) : Prop where
  keyed : r.extra.isWellKeyed = true
  foreign : ∀ key ∈ r.extra.keys, key ∉ fieldNames

namespace Separate

variable {r : TimingRecord}

theorem nodup_keys (separate : r.Separate) : (r.ownFields ++ r.extra).keys.Nodup := by
  have own : r.ownFields.keys.Nodup := by
    rw [keys_ownFields]
    decide
  rw [Document.keys, List.map_append]
  refine List.nodup_append.2 ⟨own, Document.nodup_keys separate.keyed, ?_⟩
  rintro key inOwn _ inExtra rfl
  exact separate.foreign key inExtra inOwn

theorem toDocument_eq_append (separate : r.Separate) : r.toDocument = r.ownFields ++ r.extra :=
  Document.overlay_of_nodup separate.nodup_keys

theorem isWellKeyed_toDocument (separate : r.Separate) : r.toDocument.isWellKeyed = true := by
  have own : ∀ m ∈ r.ownFields, m.2.isWellKeyed = true := by simp [ownFields, Value.isWellKeyed]
  have extra := ((Document.isWellKeyed_iff r.extra).1 separate.keyed).2
  rw [separate.toDocument_eq_append]
  exact (Document.isWellKeyed_iff _).2 ⟨separate.nodup_keys, fun m hm => (List.mem_append.1 hm).elim (own m) (extra m)⟩

theorem withField (separate : r.Separate) {name : String} {v : Value} (foreign : name ∉ fieldNames)
    (keyed : v.isWellKeyed = true) : (r.withField name v).Separate where
  keyed := Document.isWellKeyed_insert name separate.keyed keyed
  foreign key mem := by
    obtain ⟨m, hm, rfl⟩ := List.mem_map.1 mem
    rcases Document.mem_insert hm with rfl | hm
    · exact foreign
    · exact separate.foreign _ (Document.mem_keys_of_mem hm)

theorem toDocument_withField (separate : r.Separate) {name : String} {v : Value} (foreign : name ∉ fieldNames)
    (keyed : v.isWellKeyed = true) (fresh : name ∉ r.extra.keys) :
    (r.withField name v).toDocument = r.toDocument ++ [(name, v)] := by
  rw [(separate.withField foreign keyed).toDocument_eq_append, separate.toDocument_eq_append, TimingRecord.withField,
    Document.insert_of_not_mem _ fresh, List.append_assoc]
  rfl

end Separate

end TimingRecord

namespace PartialTiming

theorem assignAll_append (p : PartialTiming) (front back : Document) :
    p.assignAll (front ++ back) = p.assignAll front >>= fun p => p.assignAll back := by
  induction front generalizing p with
  | nil => rfl
  | cons m rest ih =>
    obtain ⟨key, v⟩ := m
    rw [List.cons_append, assignAll, assignAll]
    cases p.assign key v with
    | error mismatch => rfl
    | ok p => exact ih p

theorem assign_of_foreign {key : String} (foreign : key ∉ TimingRecord.fieldNames) (p : PartialTiming) (v : Value) :
    p.assign key v = .ok { p with extra := p.extra ++ [(key, v)] } := by
  simp only [TimingRecord.fieldNames, List.mem_cons, not_or] at foreign
  unfold assign
  split <;> simp_all

theorem assignAll_of_foreign {members : Document} (foreign : ∀ key ∈ members.keys, key ∉ TimingRecord.fieldNames)
    (p : PartialTiming) : p.assignAll members = .ok { p with extra := p.extra ++ members } := by
  induction members generalizing p with
  | nil => rw [List.append_nil]; rfl
  | cons m rest ih =>
    obtain ⟨key, v⟩ := m
    rw [assignAll, assign_of_foreign (foreign key List.mem_cons_self)]
    simp only [bind, Except.bind]
    rw [ih fun k hk => foreign k (List.mem_cons_of_mem _ hk), List.append_assoc, List.singleton_append]

theorem assignAll_ownFields {r : TimingRecord} (clock : Timestamp.ofText? r.recordedAt.text = some r.recordedAt) :
    assignAll {} r.ownFields =
      .ok ⟨some r.build, some r.test, some r.operation, some r.durationSecs, some r.result, some r.recordedAt, []⟩ := by
  have time : decodeTime (.string r.recordedAt.text) = .ok r.recordedAt := by rw [decodeTime, clock]
  simp only [TimingRecord.ownFields, assignAll, assign, Decode.text, Decode.double, time]
  rfl

end PartialTiming

theorem TimingRecord.decode_toDocument {r : TimingRecord} (separate : r.Separate)
    (clock : Timestamp.ofText? r.recordedAt.text = some r.recordedAt) : decode (.object r.toDocument) = .ok r := by
  rw [separate.toDocument_eq_append, decode, PartialTiming.assignAll_append, PartialTiming.assignAll_ownFields clock]
  simp only [bind, Except.bind]
  rw [PartialTiming.assignAll_of_foreign separate.foreign]
  rfl

theorem pathKeys_of_not_mem {field : String} (h : '.' ∉ field.toList) : pathKeys field = [field] := by
  rw [pathKeys, Text.split, Text.pieces_of_not_mem h]
  simp

namespace Collection

/-- A timing is stored as if the identifier had been its last extra field. -/
theorem insert_toDocument {r : TimingRecord} (c : Collection) (separate : r.Separate) (unnamed : idField ∉ r.extra.keys) :
    c.insert r.toDocument = (.string (c.fresh 0),
      ⟨c.documents ++ [(r.withField idField (.string (c.fresh 0))).toDocument], fun n => c.fresh (n + 1)⟩) := by
  have foreign : idField ∉ TimingRecord.fieldNames := by decide
  have absent : idField ∉ r.toDocument.keys := by
    rw [separate.toDocument_eq_append, Document.keys, List.map_append, List.mem_append, not_or]
    exact ⟨foreign, unnamed⟩
  have last : (r.withField idField (.string (c.fresh 0))).toDocument = _ :=
    separate.toDocument_withField foreign rfl unnamed
  rw [last, insert, (Document.get?_eq_none_iff _ _).2 absent]
  simp only [Document.insert_of_not_mem _ absent]

theorem mem_find_of_mem {c : Collection} {d : Document} {field : String} {v : Value} (stored : d ∈ c.documents)
    (keyed : d.isWellKeyed = true) (mem : (field, v) ∈ d) (single : '.' ∉ field.toList) : d ∈ c.find [(field, v)] := by
  obtain ⟨nodup, values⟩ := (Document.isWellKeyed_iff d).1 keyed
  refine List.mem_filter.2 ⟨stored, ?_⟩
  rw [matchesFilter_singleton, pathKeys_of_not_mem single, Document.at?_singleton, Document.get?_of_mem nodup mem]
  exact meets_of_same (Value.same_refl (values _ mem))

end Collection

namespace Command

theorem of_recordOf {now : Timestamp} {m : Measurement} {record : TimingRecord} (built : recordOf now m = .ok record) :
    record.recordedAt = now ∧ ∃ pairs, m.fields.map Assignment.read? = pairs.map some ∧
      record.extra = Assignment.fields pairs := by
  unfold recordOf at built
  split at built
  · cases built
  · split at built
    · cases built
    · obtain ⟨pairs, read, built⟩ := bind_eq_ok_iff.1 built
      cases built
      exact ⟨rfl, pairs, Assignment.readAll_eq_ok_iff.1 read, rfl⟩

/-- What was recorded can be found by its identifier and by every field without a dot, and reads back as it was. That
its time does so holds of every moment of the years that are read: `Timestamp.ofText?_text`. -/
theorem record_readBack {now : Timestamp} {m : Measurement} {record : TimingRecord} (c : Collection)
    (built : recordOf now m = .ok record)
    (foreign : ∀ name, Assignment.Assigned m.fields name → name ∉ TimingRecord.fieldNames ∧ name ≠ idField)
    (clock : Timestamp.ofText? now.text = some now) :
    ∃ id d after, c.perform (.insertOne record.toDocument) = (.ok (.inserted id), after) ∧
      after.documents = c.documents ++ [d] ∧ d ∈ after.find [(idField, id)] ∧
      (∀ field v, (field, v) ∈ record.ownFields ++ record.extra → '.' ∉ field.toList → d ∈ after.find [(field, v)]) ∧
      TimingRecord.decode (.object d) = .ok { record with extra := record.extra ++ [(idField, id)] } := by
  obtain ⟨rfl, pairs, read, fields⟩ := of_recordOf built
  have keyed : record.extra.isWellKeyed = true := fields ▸ Assignment.isWellKeyed_fields read
  have named : ∀ key ∈ record.extra.keys, key ∉ TimingRecord.fieldNames ∧ key ≠ idField := by
    intro key mem
    rw [fields, Assignment.mem_keys_fields, Assignment.mem_keys_iff read] at mem
    exact foreign key mem
  have separate : record.Separate := ⟨keyed, fun key mem => (named key mem).1⟩
  have unnamed : idField ∉ record.extra.keys := fun mem => (named _ mem).2 rfl
  have inserted := Collection.insert_toDocument c separate unnamed
  let id := Value.string (c.fresh 0)
  let rest : Nat → String := fun n => c.fresh (n + 1)
  let d := (record.withField idField id).toDocument
  have separate' : (record.withField idField id).Separate := separate.withField (by decide) rfl
  have extended : record.withField idField id = { record with extra := record.extra ++ [(idField, id)] } := by
    rw [TimingRecord.withField, Document.insert_of_not_mem _ unnamed]
  have whole : d = record.ownFields ++ record.extra ++ [(idField, id)] := by
    rw [← separate.toDocument_eq_append]
    exact separate.toDocument_withField (by decide) rfl unnamed
  have found : ∀ field v, (field, v) ∈ d → '.' ∉ field.toList →
      d ∈ Collection.find ⟨c.documents ++ [d], rest⟩ [(field, v)] := fun field v mem single =>
    Collection.mem_find_of_mem (List.mem_append_right _ List.mem_cons_self) separate'.isWellKeyed_toDocument mem single
  refine ⟨id, d, ⟨c.documents ++ [d], rest⟩, ?_, rfl, found idField id ?_ (by decide), ?_, ?_⟩
  · rw [Collection.perform, inserted]
  · rw [whole]
    exact List.mem_append_right _ List.mem_cons_self
  · intro field v mem
    refine found field v ?_
    rw [whole]
    exact List.mem_append_left _ mem
  · rw [← extended]
    exact TimingRecord.decode_toDocument separate' clock

/-- A failed measurement with two extra fields, one of them named twice. -/
theorem record_readBack_retried :
    let m : Measurement := ⟨"531", "TEST-2129", "put_object", some (.zero true), true, ["nodes=3", "note=slow", "nodes=[4]"]⟩
    let record : TimingRecord := ⟨"531", "TEST-2129", "put_object", .zero true, "Fail", ⟨1700000000, 250000000⟩,
      [("nodes", .array [.int 4]), ("note", .string "slow")]⟩
    recordOf ⟨1700000000, 250000000⟩ m = .ok record ∧
      ∃ id d after, (Collection.empty Collection.numbered).perform (.insertOne record.toDocument) = (.ok (.inserted id), after) ∧
        after.documents = [d] ∧ d ∈ after.find [("nodes", .array [.int 4])] ∧ d ∈ after.find [("result", .string "Fail")] ∧
        TimingRecord.decode (.object d) = .ok { record with extra := record.extra ++ [(idField, id)] } := by
  intro m record
  have built : recordOf ⟨1700000000, 250000000⟩ m = .ok record := by cbv
  have clock : Timestamp.ofText? (Timestamp.text ⟨1700000000, 250000000⟩) = some ⟨1700000000, 250000000⟩ :=
    Timestamp.ofText?_text ⟨by decide, by decide⟩
  have read : m.fields.map Assignment.read? =
      [("nodes", Value.int 3), ("note", .string "slow"), ("nodes", .array [.int 4])].map some := by cbv
  have foreign : ∀ name, Assignment.Assigned m.fields name → name ∉ TimingRecord.fieldNames ∧ name ≠ idField := by
    intro name assigned
    have named := (Assignment.mem_keys_iff read name).2 assigned
    simp only [Document.keys, List.map_cons, List.map_nil, List.mem_cons, List.not_mem_nil, or_false] at named
    rcases named with rfl | rfl | rfl <;> decide
  obtain ⟨id, d, after, performed, documents, -, found, decoded⟩ := record_readBack (.empty Collection.numbered) built foreign clock
  refine ⟨built, id, d, after, performed, documents, ?_, ?_, decoded⟩
  · exact found "nodes" (.array [.int 4]) (by simp [record]) (by decide)
  · exact found "result" (.string "Fail") (by simp [record, TimingRecord.ownFields]) (by decide)

end Command

end BucketBench
