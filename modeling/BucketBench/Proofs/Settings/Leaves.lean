import BucketBench.Proofs.Decode.Record
import BucketBench.Proofs.Store.Path
import BucketBench.Settings.Basic

set_option autoImplicit false

/-!
# The leaves of the settings

A leaf is a key of a part. Five kinds of values stand at leaves, and all but the format of the log are written as they
were given. Each part is a record of leaves and the settings are a record of parts, so settings are read in layers, leaf
by leaf, from any document whose parts are tables: `Settings.decode_eq_ok_iff`.
-/

namespace BucketBench

/-- What stands below two keys is found in the object under the first one. -/
theorem Document.at?_pair {part : String} {d inner : Document} (h : d.get? part = some (.object inner)) (key : String) :
    d.at? [part, key] = inner.get? key := at?_of_object (List.cons_ne_nil key []) h

inductive LeafKind where
  | text
  | optionalText
  | flag
  | count
  | format

namespace LeafKind

/-- What is written again of a value that was read into a leaf. Only a format may be spelled in another way. -/
inductive Reads (n : Dialect) : LeafKind → Value → Value → Prop
  | text (s : String) : Reads n .text (.string s) (.string s)
  | noText : Reads n .optionalText .null .null
  | someText (s : String) : Reads n .optionalText (.string s) (.string s)
  | flag (b : Bool) : Reads n .flag (.bool b) (.bool b)
  | count (k : Nat) (fits : (k : Int) ∈ IntRange.word32) : Reads n .count (.int k) (.int k)
  | format (f : LogFormat) : Reads n .format (.string f.name) (.string f.name)
  | formatTable (f : LogFormat) {unit : Value} (h : LogFormat.isUnit n unit = true) :
      Reads n .format (.object [(f.name, unit)]) (.string f.name)

variable (n : Dialect)

theorem text_eq_ok_iff (w : Value) (s : String) : Decode.text w = .ok s ↔ w = .string s := by
  cases w <;> simp [Decode.text]

theorem path_eq_ok_iff (w : Value) (s : String) : Decode.path w = .ok s ↔ w = .string s := by
  cases w <;> simp [Decode.path]

theorem reads_text_iff {decode : Decoder String} (texts : ∀ w s, decode w = .ok s ↔ w = .string s) (w v : Value) :
    Reads n .text w v ↔ ∃ s, decode w = .ok s ∧ v = .string s := by
  simp only [texts]
  constructor
  · rintro ⟨⟩
    exact ⟨_, rfl, rfl⟩
  · rintro ⟨s, rfl, rfl⟩
    exact .text s

theorem reads_optionalText_iff (w v : Value) : Reads n .optionalText w v ↔
    ∃ s, Decode.optional Decode.text w = .ok s ∧ v = (s.map Value.string).getD .null := by
  constructor
  · rintro ⟨⟩
    · exact ⟨none, rfl, rfl⟩
    · exact ⟨some _, rfl, rfl⟩
  · rintro ⟨s, h, rfl⟩
    cases w <;> cases h
    · exact .noText
    · exact .someText _

theorem reads_flag_iff (w v : Value) : Reads n .flag w v ↔ ∃ b, Decode.bool w = .ok b ∧ v = .bool b := by
  constructor
  · rintro ⟨⟩
    exact ⟨_, rfl, rfl⟩
  · rintro ⟨b, h, rfl⟩
    cases w <;> cases h
    exact .flag b

theorem u32_eq_ok_iff (w : Value) (k : Nat) : Decode.u32 w = .ok k ↔ w = .int k ∧ (k : Int) ∈ IntRange.word32 := by
  unfold Decode.u32
  rw [map_eq_ok_iff]
  constructor
  · rintro ⟨i, h, rfl⟩
    cases w with
    | int j =>
      rw [Decode.int] at h
      split at h
      · rename_i fits
        cases h
        have exact : ((i.toNat : Nat) : Int) = i := Int.toNat_of_nonneg fits.1
        rw [exact]
        exact ⟨rfl, fits⟩
      · cases h
    | _ => cases h
  · rintro ⟨rfl, fits⟩
    exact ⟨k, if_pos fits, Int.toNat_natCast k⟩

theorem reads_count_iff (w v : Value) : Reads n .count w v ↔ ∃ k : Nat, Decode.u32 w = .ok k ∧ v = .int k := by
  simp only [u32_eq_ok_iff]
  constructor
  · rintro ⟨⟩
    exact ⟨_, ⟨rfl, ‹_›⟩, rfl⟩
  · rintro ⟨k, ⟨rfl, fits⟩, rfl⟩
    exact .count k fits

theorem ofName_eq_ok_iff (name : String) (f : LogFormat) : LogFormat.ofName name = .ok f ↔ name = f.name := by
  unfold LogFormat.ofName
  split
  · cases f <;> simp_all [LogFormat.name]
  · split <;> cases f <;> simp_all [LogFormat.name]

theorem reads_format_iff (w v : Value) :
    Reads n .format w v ↔ ∃ f, LogFormat.decode n w = .ok f ∧ v = .string f.name := by
  constructor
  · rintro ⟨⟩
    · exact ⟨_, (ofName_eq_ok_iff _ _).2 rfl, rfl⟩
    · rename_i f unit h
      refine ⟨f, bind_eq_ok_iff.2 ⟨f, (ofName_eq_ok_iff _ _).2 rfl, if_pos h⟩, rfl⟩
  · rintro ⟨f, h, rfl⟩
    unfold LogFormat.decode at h
    split at h
    · obtain rfl := (ofName_eq_ok_iff _ _).1 h
      exact .format f
    · obtain ⟨g, named, checked⟩ := bind_eq_ok_iff.1 h
      obtain rfl := (ofName_eq_ok_iff _ _).1 named
      split at checked
      · cases checked
        exact .formatTable f ‹_›
      · cases checked
    · cases h
    · cases h

theorem Reads.eq_of_not_object {n : Dialect} {k : LeafKind} {w v : Value} (h : Reads n k w v)
    (plain : w.isObject = false) : v = w := by
  cases h with
  | formatTable => cases plain
  | _ => rfl

theorem Reads.isWellKeyed {n : Dialect} {k : LeafKind} {w v : Value} (h : Reads n k w v) : v.isWellKeyed = true := by
  cases h <;> rfl

theorem Reads.isObject_eq_false {n : Dialect} {k : LeafKind} {w v : Value} (h : Reads n k w v) : v.isObject = false := by
  cases h <;> rfl

end LeafKind


/-! ## The parts -/

theorem optionalText_injective : Function.Injective fun s : Option String => (s.map Value.string).getD .null := by
  intro a b same
  cases a <;> cases b <;> cases same <;> rfl

theorem formatName_injective : Function.Injective LogFormat.name := by
  intro a b same
  cases a <;> cases b <;> first | rfl | simp [LogFormat.name] at same

section Parts

variable (n : Dialect)

open LeafKind

namespace S3Settings

def kind : String → LeafKind
  | "session_token" => .optionalText
  | "force_path_style" => .flag
  | "max_attempts" => .count
  | _ => .text

theorem faithful : decoder.Faithful toDocument fun key => (kind key).Reads n where
  keys := fun _ => rfl
  nodup := by decide
  injective := by
    rintro ⟨⟩ ⟨⟩ h
    simpa [toDocument, optionalText_injective.eq_iff, Int.natCast_inj] using h
  fields := by
    simp only [decoder, List.forall_mem_cons]
    exact ⟨writes_of (reads_text_iff n text_eq_ok_iff) fun _ _ => rfl, writes_of (reads_text_iff n text_eq_ok_iff) fun _ _ => rfl,
      writes_of (reads_text_iff n text_eq_ok_iff) fun _ _ => rfl, writes_of (reads_text_iff n text_eq_ok_iff) fun _ _ => rfl,
      writes_of (reads_optionalText_iff n) fun _ _ => rfl, writes_of (reads_flag_iff n) fun _ _ => rfl,
      writes_of (reads_count_iff n) fun _ _ => rfl, List.forall_mem_nil _⟩

theorem reads_self {s : S3Settings} (fits : (s.maxAttempts : Int) ∈ IntRange.word32) :
    ∀ m ∈ s.toDocument, (kind m.1).Reads n m.2 m.2 := by
  have token : Reads n .optionalText ((s.sessionToken.map .string).getD .null) ((s.sessionToken.map .string).getD .null) := by
    cases s.sessionToken with
    | none => exact .noText
    | some t => exact .someText t
  simp only [toDocument, List.forall_mem_cons]
  exact ⟨.text _, .text _, .text _, .text _, token, .flag _, .count _ fits, List.forall_mem_nil _⟩

end S3Settings

namespace DatabaseSettings

theorem faithful : decoder.Faithful toDocument fun _ => Reads n .text where
  keys := fun _ => rfl
  nodup := by decide
  injective := by
    rintro ⟨⟩ ⟨⟩ h
    simpa [toDocument] using h
  fields := by
    simp only [decoder, List.forall_mem_cons]
    exact ⟨writes_of (reads_text_iff n text_eq_ok_iff) fun _ _ => rfl, writes_of (reads_text_iff n text_eq_ok_iff) fun _ _ => rfl,
      writes_of (reads_text_iff n text_eq_ok_iff) fun _ _ => rfl, writes_of (reads_text_iff n text_eq_ok_iff) fun _ _ => rfl,
      writes_of (reads_text_iff n text_eq_ok_iff) fun _ _ => rfl, writes_of (reads_text_iff n text_eq_ok_iff) fun _ _ => rfl,
      writes_of (reads_text_iff n text_eq_ok_iff) fun _ _ => rfl, List.forall_mem_nil _⟩

theorem reads_self (s : DatabaseSettings) : ∀ m ∈ s.toDocument, Reads n .text m.2 m.2 := by
  simp only [toDocument, List.forall_mem_cons]
  exact ⟨.text _, .text _, .text _, .text _, .text _, .text _, .text _, List.forall_mem_nil _⟩

end DatabaseSettings

namespace PathSettings

theorem faithful : decoder.Faithful toDocument fun _ => Reads n .text where
  keys := fun _ => rfl
  nodup := by decide
  injective := by
    rintro ⟨⟩ ⟨⟩ h
    simpa [toDocument] using h
  fields := by
    simp only [decoder, List.forall_mem_cons]
    exact ⟨writes_of (reads_text_iff n path_eq_ok_iff) fun _ _ => rfl, writes_of (reads_text_iff n path_eq_ok_iff) fun _ _ => rfl,
      writes_of (reads_text_iff n path_eq_ok_iff) fun _ _ => rfl, List.forall_mem_nil _⟩

theorem reads_self (s : PathSettings) : ∀ m ∈ s.toDocument, Reads n .text m.2 m.2 := by
  simp only [toDocument, List.forall_mem_cons]
  exact ⟨.text _, .text _, .text _, List.forall_mem_nil _⟩

end PathSettings

namespace SecretSettings

theorem faithful : decoder.Faithful toDocument fun _ => Reads n .text where
  keys := fun _ => rfl
  nodup := by decide
  injective := by
    rintro ⟨⟩ ⟨⟩ h
    simpa [toDocument] using h
  fields := by
    simp only [decoder, List.forall_mem_cons]
    exact ⟨writes_of (reads_text_iff n text_eq_ok_iff) fun _ _ => rfl, writes_of (reads_text_iff n text_eq_ok_iff) fun _ _ => rfl,
      List.forall_mem_nil _⟩

theorem reads_self (s : SecretSettings) : ∀ m ∈ s.toDocument, Reads n .text m.2 m.2 := by
  simp only [toDocument, List.forall_mem_cons]
  exact ⟨.text _, .text _, List.forall_mem_nil _⟩

end SecretSettings

namespace LogSettings

def kind : String → LeafKind
  | "format" => .format
  | _ => .text

theorem faithful : (decoder n).Faithful toDocument fun key => (kind key).Reads n where
  keys := fun _ => rfl
  nodup := by
    show ["level", "format"].Nodup
    decide
  injective := by
    rintro ⟨⟩ ⟨⟩ h
    simpa [toDocument, formatName_injective.eq_iff] using h
  fields := by
    simp only [decoder, List.forall_mem_cons]
    exact ⟨writes_of (reads_text_iff n text_eq_ok_iff) fun _ _ => rfl, writes_of (reads_format_iff n) fun _ _ => rfl,
      List.forall_mem_nil _⟩

theorem reads_self (s : LogSettings) : ∀ m ∈ s.toDocument, (kind m.1).Reads n m.2 m.2 := by
  simp only [toDocument, List.forall_mem_cons]
  exact ⟨.text _, .format _, List.forall_mem_nil _⟩

end LogSettings

end Parts

/-! ## The whole -/

def RecordDecoder.Reads {α : Type} (r : RecordDecoder α) (written : α → Document) (n : Dialect) (w v : Value) : Prop :=
  ∃ record, r.decode n.isStrict w = .ok record ∧ v = .object (written record)

section Part

variable {α : Type} {r : RecordDecoder α} {written : α → Document} {reads : String → Value → Value → Prop}
  (faithful : r.Faithful written reads) (n : Dialect) {d base after : Document} {part : String}
  (keyed : d.isWellKeyed = true) (table : ∀ v, d.get? part = some v → v.isObject = true)

include faithful

theorem leaf_iff {record : α} (shown : base.get? part = some (.object (written record))) (key : String) :
    (∃ v, base.at? [part, key] = some v) ↔ key ∈ r.keys := by
  rw [Document.at?_pair shown, ← faithful.keys record, ← Option.ne_none_iff_exists', ne_eq, Document.get?_eq_none_iff,
    not_not]

theorem leaf_congr {record record' : α} (shown : base.get? part = some (.object (written record)))
    (shown' : after.get? part = some (.object (written record'))) (key : String) :
    (∃ v, base.at? [part, key] = some v) ↔ ∃ v, after.at? [part, key] = some v :=
  (leaf_iff faithful shown key).trans (leaf_iff faithful shown' key).symm

include keyed table

/-- A part that is read in layers is read leaf by leaf. -/
theorem layered_part_iff {last : α} (first : base.get? part = some (.object (written r.initial)))
    (now : after.get? part = some (.object (written last))) :
    Layered (r.Reads written n) (d.get? part) (base.get? part) (after.get? part) ↔
      ∀ key, (∃ v, base.at? [part, key] = some v) →
        Layered (reads key) (d.at? [part, key]) (base.at? [part, key]) (after.at? [part, key]) := by
  simp only [leaf_iff faithful first]
  simp only [Document.at?_pair first, Document.at?_pair now, first, now]
  cases found : d.get? part with
  | none =>
    have same : some (Value.object (written last)) = some (Value.object (written r.initial)) ↔ last = r.initial := by
      simp [faithful.injective.eq_iff]
    simp only [layered_none_iff, same, faithful.eq_iff, Document.at?_of_absent _ found]
  | some v =>
    cases v with
    | object inner =>
      have nodup : (Document.keys inner).Nodup := Document.nodup_keys (Document.isWellKeyed_of_get? keyed found)
      have read : (∃ v, r.Reads written n (.object inner) v ∧ some (Value.object (written last)) = some v) ↔
          r.assignAll r.initial inner = .ok last := by
        constructor
        · rintro ⟨_, ⟨record, read, rfl⟩, same⟩
          obtain rfl := faithful.injective (Value.object.inj (Option.some.inj same))
          exact read
        · intro read
          exact ⟨_, ⟨last, read, rfl⟩, rfl⟩
      rw [layered_some_iff, read, faithful.assignAll_eq_ok_iff nodup]
      simp only [Document.at?_pair found]
    | _ => cases table _ found

theorem exists_reads_part (first : base.get? part = some (.object (written r.initial)))
    (readable : ∀ key, (∃ v, base.at? [part, key] = some v) → ∀ w, d.at? [part, key] = some w → ∃ v, reads key w v)
    {w : Value} (given : d.get? part = some w) : ∃ v, r.Reads written n w v := by
  cases w with
  | object inner =>
    have nodup : (Document.keys inner).Nodup := Document.nodup_keys (Document.isWellKeyed_of_get? keyed given)
    have members : ∀ m ∈ inner, m.1 ∈ r.keys → ∃ v, reads m.1 m.2 v := by
      intro m mem known
      apply readable m.1 ((leaf_iff faithful first m.1).2 known)
      rw [Document.at?_pair given]
      exact Document.get?_of_mem nodup mem
    obtain ⟨record, read⟩ := faithful.exists_assignAll members r.initial
    exact ⟨_, record, read, rfl⟩
  | _ => cases table _ given

end Part

namespace Settings

def PartReads (n : Dialect) : String → Value → Value → Prop
  | "s3" => S3Settings.decoder.Reads S3Settings.toDocument n
  | "database" => DatabaseSettings.decoder.Reads DatabaseSettings.toDocument n
  | "paths" => PathSettings.decoder.Reads PathSettings.toDocument n
  | "secrets" => SecretSettings.decoder.Reads SecretSettings.toDocument n
  | "logging" => (LogSettings.decoder n).Reads LogSettings.toDocument n
  | _ => fun _ _ => False

theorem faithful (n : Dialect) : (decoder n).Faithful toDocument (PartReads n) where
  keys := fun _ => rfl
  nodup := by
    show ["s3", "database", "paths", "secrets", "logging"].Nodup
    decide
  injective := by
    rintro ⟨⟩ ⟨⟩ h
    simpa [toDocument, (S3Settings.faithful n).injective.eq_iff, (DatabaseSettings.faithful n).injective.eq_iff,
      (PathSettings.faithful n).injective.eq_iff, (SecretSettings.faithful n).injective.eq_iff,
      (LogSettings.faithful n).injective.eq_iff] using h
  fields := by
    simp only [decoder, List.forall_mem_cons]
    exact ⟨writes_of (fun _ _ => Iff.rfl) fun _ _ => rfl, writes_of (fun _ _ => Iff.rfl) fun _ _ => rfl,
      writes_of (fun _ _ => Iff.rfl) fun _ _ => rfl, writes_of (fun _ _ => Iff.rfl) fun _ _ => rfl,
      writes_of (fun _ _ => Iff.rfl) fun _ _ => rfl, List.forall_mem_nil _⟩

/-- What holds of every part holds of the five. -/
theorem forall_parts_iff (n : Dialect) {P : String → Prop} :
    (∀ part ∈ (decoder n).keys, P part) ↔ P "s3" ∧ P "database" ∧ P "paths" ∧ P "secrets" ∧ P "logging" := by
  simp [RecordDecoder.keys, decoder]

def InTables (d : Document) : Prop :=
  ∀ part ∈ ({} : Settings).toDocument.keys, ∀ v, d.get? part = some v → v.isObject = true

instance (d : Document) : Decidable (InTables d) :=
  decidable_of_iff (∀ part ∈ ({} : Settings).toDocument.keys, (d.get? part).all Value.isObject = true)
    (by simp only [InTables, Option.all_eq_true])

/-- The settings have a value at a key of a part, the defaults among them. -/
def IsLeaf (part key : String) : Prop := ∃ v, ({} : Settings).toDocument.at? [part, key] = some v

theorem IsLeaf.mem_keys {part key : String} (leaf : IsLeaf part key) (n : Dialect) : part ∈ (decoder n).keys := by
  obtain ⟨v, there⟩ := leaf
  by_contra unknown
  rw [← (faithful n).keys {}, ← Document.get?_eq_none_iff] at unknown
  rw [Document.at?_of_absent [key] unknown] at there
  cases there

/-- All settings have a value at every leaf. -/
theorem IsLeaf.exists_at? {part key : String} (leaf : IsLeaf part key) (s : Settings) :
    ∃ v, s.toDocument.at? [part, key] = some v := by
  have parts : ∀ part ∈ (decoder .json).keys, IsLeaf part key → ∃ v, s.toDocument.at? [part, key] = some v :=
    (forall_parts_iff .json).2 ⟨(leaf_congr (S3Settings.faithful .json) rfl rfl key).1,
      (leaf_congr (DatabaseSettings.faithful .json) rfl rfl key).1,
      (leaf_congr (PathSettings.faithful .json) rfl rfl key).1,
      (leaf_congr (SecretSettings.faithful .json) rfl rfl key).1,
      (leaf_congr (LogSettings.faithful .json) rfl rfl key).1⟩
  exact parts part (leaf.mem_keys .json) leaf

def kind : String → String → LeafKind
  | "s3" => S3Settings.kind
  | "logging" => LogSettings.kind
  | _ => fun _ => .text

section Decode

variable (n : Dialect) {d : Document} (keyed : d.isWellKeyed = true) (tables : InTables d)

include keyed tables

/-- Settings are read in layers, each leaf on its own. -/
theorem decode_eq_ok_iff (s : Settings) :
    decode n (.object d) = .ok s ↔ ∀ part key, IsLeaf part key →
      Layered ((kind part key).Reads n) (d.at? [part, key]) (({} : Settings).toDocument.at? [part, key])
        (s.toDocument.at? [part, key]) := by
  have parts : ∀ part ∈ (decoder n).keys,
      (Layered (PartReads n part) (d.get? part) (({} : Settings).toDocument.get? part) (s.toDocument.get? part) ↔
        ∀ key, IsLeaf part key → Layered ((kind part key).Reads n) (d.at? [part, key])
          (({} : Settings).toDocument.at? [part, key]) (s.toDocument.at? [part, key])) := by
    obtain ⟨s3, database, paths, secrets, logging⟩ := (forall_parts_iff n).1 tables
    exact (forall_parts_iff n).2 ⟨layered_part_iff (S3Settings.faithful n) n keyed s3 rfl rfl,
      layered_part_iff (DatabaseSettings.faithful n) n keyed database rfl rfl,
      layered_part_iff (PathSettings.faithful n) n keyed paths rfl rfl,
      layered_part_iff (SecretSettings.faithful n) n keyed secrets rfl rfl,
      layered_part_iff (LogSettings.faithful n) n keyed logging rfl rfl⟩
  have read := (faithful n).assignAll_eq_ok_iff (Document.nodup_keys keyed) {} s
  refine read.trans ⟨fun layers part key leaf => ?_, fun layers part known => (parts part known).2 (layers part)⟩
  have known := leaf.mem_keys n
  exact (parts part known).1 (layers part known) key leaf

/-- A document is read when each of its leaves can be read. -/
theorem exists_decode (readable : ∀ part key, IsLeaf part key → ∀ w, d.at? [part, key] = some w →
    ∃ v, (kind part key).Reads n w v) : ∃ s, decode n (.object d) = .ok s := by
  have parts : ∀ part ∈ (decoder n).keys, ∀ w, d.get? part = some w → ∃ v, PartReads n part w v := by
    obtain ⟨s3, database, paths, secrets, logging⟩ := (forall_parts_iff n).1 tables
    exact (forall_parts_iff n).2 ⟨fun _ => exists_reads_part (S3Settings.faithful n) n keyed s3 rfl (readable _),
      fun _ => exists_reads_part (DatabaseSettings.faithful n) n keyed database rfl (readable _),
      fun _ => exists_reads_part (PathSettings.faithful n) n keyed paths rfl (readable _),
      fun _ => exists_reads_part (SecretSettings.faithful n) n keyed secrets rfl (readable _),
      fun _ => exists_reads_part (LogSettings.faithful n) n keyed logging rfl (readable _)⟩
  refine (faithful n).exists_assignAll (fun m mem known => parts m.1 known m.2 ?_) {}
  exact Document.get?_of_mem (Document.nodup_keys keyed) mem

end Decode

end Settings

end BucketBench
