import BucketBench.Proofs.Client.AliasFile

set_option autoImplicit false

namespace BucketBench

namespace Document

/-- Some members of a document were written: the other members are the same ones in the same order, and the keys stand
where they stood, those that were not there behind them. -/
structure Written (old top new : Document) : Prop where
  values : ∀ m ∈ top, new.get? m.1 = some m.2
  others : new.filter (·.1 ∉ top.keys) = old.filter (·.1 ∉ top.keys)
  keys : new.keys = old.keys ++ top.keys.filter (· ∉ old.keys)

theorem filter_insert {key : String} {keys : List String} (value : Value) (d : Document) (mem : key ∈ keys) :
    (d.insert key value).filter (·.1 ∉ keys) = d.filter (·.1 ∉ keys) := by
  induction d with
  | nil => simp [insert, mem]
  | cons m rest ih =>
    obtain ⟨k, v⟩ := m
    by_cases same : k = key
    · subst same
      simp [insert, mem]
    · rw [insert, if_neg same, List.filter_cons, List.filter_cons, ih]

theorem filter_overlay {keys : List String} (base top : Document) (within : top.keys ⊆ keys) :
    (overlay base top).filter (·.1 ∉ keys) = base.filter (·.1 ∉ keys) := by
  induction top generalizing base with
  | nil => rfl
  | cons m rest ih =>
    obtain ⟨mem, later⟩ := List.cons_subset.1 within
    rw [overlay_cons, ih _ later, filter_insert m.2 base mem]

theorem written_overlay {top : Document} (nodup : top.keys.Nodup) (old : Document) :
    Written old top (overlay old top) where
  values m mem := by
    rw [get?_overlay_of_nodup nodup, get?_of_mem nodup mem, Option.some_or]
  others := filter_overlay old top (List.Subset.refl _)
  keys := keys_overlay nodup old

end Document

namespace AliasFile

/-- The members of the object under a key, and none when there is no object. -/
inductive MembersAt (key : String) (d : Document) : Document → Prop where
  | object {members : Document} (found : d.get? key = some (.object members)) : MembersAt key d members
  | other (none : ∀ members, d.get? key ≠ some (.object members)) : MembersAt key d []

theorem membersAt_objectAt (key : String) (d : Document) : MembersAt key d (objectAt key d) := by
  unfold objectAt
  split
  · exact .object ‹_›
  · rename_i none
    exact .other none

/-- The keys of an alias were written into a document, and nothing else. What is no object where one is needed gives way
to an empty one. -/
def KeysWritten (name access secret : String) (old new : Document) : Prop :=
  ∃ oldAliases oldEntry aliases entry,
    MembersAt "aliases" old oldAliases ∧ MembersAt name oldAliases oldEntry ∧
    old.Written [("aliases", .object aliases)] new ∧
    oldAliases.Written [(name, .object entry)] aliases ∧
    oldEntry.Written [("accessKey", .string access), ("secretKey", .string secret)] entry

theorem keysWritten_setKeys (f : AliasFile) (name access secret : String) :
    KeysWritten name access secret f.data (f.setKeys name access secret).data := by
  have single (key : String) (v : Value) : (Document.keys [(key, v)]).Nodup := List.nodup_singleton key
  have pair : (Document.keys [("accessKey", .string access), ("secretKey", .string secret)]).Nodup := by
    simp [Document.keys]
  exact ⟨_, _, _, f.entry name access secret, membersAt_objectAt _ _, membersAt_objectAt _ _,
    Document.written_overlay (single _ _) _, Document.written_overlay (single _ _) _, Document.written_overlay pair _⟩

def Holds (fs : Files) (path : String) (d : Document) : Prop :=
  ∃ text, fs.readText path = .ok text ∧ Json.read? text = some (.object d)

/-- The files after a call: those that it wrote, and those that were there when it failed. -/
def filesAfter (fs : Files) : Except Error (Bool × Files) → Files
  | .ok (_, after) => after
  | .error _ => fs

variable {fs after : Files} {path : String} {f : AliasFile}

theorem holds_of_load (h : load fs path = .ok f) : Holds fs path f.data := by
  obtain ⟨text, readable, object, -⟩ := (load_eq_ok_iff f).1 h
  exact ⟨text, readable, object⟩

theorem path_of_load (h : load fs path = .ok f) : f.path = path := by
  obtain ⟨-, -, -, same⟩ := (load_eq_ok_iff f).1 h
  exact same

theorem lookup?_of_save (h : f.save fs = .ok after) :
    ∃ place, fs.locate f.path = .ok place ∧ ∀ other, other ≠ place → after.lookup? other = fs.lookup? other := by
  obtain ⟨place, located, -, rfl⟩ := Files.write_eq_ok_iff.1 (mapError_eq_ok_iff.1 h)
  exact ⟨place, Files.locate_of_locateNew located, fun other apart => Files.lookup?_put_of_ne fs _ apart.symm⟩

/-- When the file cannot be loaded or holds the keys already, no file is touched; a file that was loaded is left alone
exactly when both keys are found in it, and otherwise it is written unless saving fails. When it is written, it holds the
document that it held before with the two keys of the alias in it, everything else in it is as it was and where it was,
and so is every other file. -/
theorem ensureKeys_writes_only_keys (fs : Files) (path name access secret : String) :
    let result := ensureKeys fs path name access secret
    (∀ fault, load fs path = .error fault → result = .error fault ∧ filesAfter fs result = fs) ∧
      (∀ f, load fs path = .ok f →
        (result = .ok (false, fs) ↔ f.accessKey name = some access ∧ f.secretKey name = some secret) ∧
          ∀ fault, result = .error fault → (f.setKeys name access secret).save fs = .error fault) ∧
      (∀ after, result = .ok (false, after) → after = fs) ∧
      (∀ after, result = .ok (true, after) →
        ∃ old new, Holds fs path old ∧ Holds after path new ∧ KeysWritten name access secret old new ∧
          ∃ place, fs.locate path = .ok place ∧ ∀ other, other ≠ place → after.lookup? other = fs.lookup? other) := by
  refine ⟨fun fault failed => ?_, fun f loaded => ⟨?_, fun fault fails => ?_⟩, fun after unwritten => ?_,
    fun after written => ?_⟩
  · have result : ensureKeys fs path name access secret = .error fault := bind_eq_error_iff.2 (.inl failed)
    rw [result]
    exact ⟨rfl, rfl⟩
  · exact (ensureKeys_eq_ok_false_iff _ _ _ loaded).trans (keysMatch_iff _ _ _ _)
  · exact save_eq_error_of_ensureKeys _ _ _ loaded fails
  · obtain ⟨f, -, -, same⟩ := ensureKeys_cases _ _ _ unwritten
    exact same
  · obtain ⟨f, loaded, -, saved⟩ := ensureKeys_cases _ _ _ written
    have reloaded := load_of_save name access secret loaded saved
    obtain ⟨place, located, others⟩ := lookup?_of_save saved
    refine ⟨f.data, (f.setKeys name access secret).data, holds_of_load loaded, holds_of_load reloaded,
      keysWritten_setKeys f name access secret, place, ?_, others⟩
    rw [← path_of_load loaded]
    exact located

end AliasFile

end BucketBench
