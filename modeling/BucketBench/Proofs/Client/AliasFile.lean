import BucketBench.Client.AliasFile
import BucketBench.Proofs.Json.Pointer
import BucketBench.Proofs.Json.Printer
import BucketBench.Proofs.World.Files

set_option autoImplicit false

/-!
# Keys of an alias that settle

The keys of an alias are written under its name and read through a pointer that the name is put into. Both are about the
same member exactly when the name is plain, so only then does a second call find what the first one has written.
-/

namespace BucketBench.AliasFile

open Json.Pointer

variable (f : AliasFile) (name access secret : String)

def text? : Value → Option String
  | .string s => some s
  | _ => none

theorem textAt_eq {key : String} (plain : IsPlain key) :
    f.textAt name key =
      (((f.data.get? "aliases").bind (follow (keysIn name ++ [key]))).bind text?) := by
  have split : "/aliases/" ++ name ++ "/" ++ key = "/" ++ ("aliases" ++ "/" ++ name ++ "/" ++ key) := by
    apply String.toList_injective
    simp
  have aliases : IsPlain "aliases" := ⟨by decide, by decide, by decide⟩
  have within : follow ("aliases" :: (keysIn name ++ [key])) (.object f.data) =
      (f.data.get? "aliases").bind (follow (keysIn name ++ [key])) := follow_object _ _ _
  rw [textAt, split, get?, keys?_slash, keysIn_append, keysIn_append, aliases.keysIn_eq, plain.keysIn_eq,
    List.append_assoc, List.singleton_append, Option.bind_some, within]
  cases (f.data.get? "aliases").bind (follow (keysIn name ++ [key])) with
  | none => rfl
  | some v => cases v <;> rfl

def entry : Document :=
  ((objectAt name (objectAt "aliases" f.data)).insert "accessKey" (.string access)).insert "secretKey" (.string secret)

theorem get?_aliases_setKeys :
    (f.setKeys name access secret).data.get? "aliases" =
      some (.object ((objectAt "aliases" f.data).insert name (.object (f.entry name access secret)))) :=
  Document.get?_insert_self _ _ _

theorem textAt_setKeys_of_plain {key : String} (plain : IsPlain name) (plainKey : IsPlain key) :
    (f.setKeys name access secret).textAt name key = ((f.entry name access secret).get? key).bind text? := by
  rw [textAt_eq _ _ plainKey, get?_aliases_setKeys, plain.keysIn_eq]
  simp only [Option.bind_some, List.singleton_append, follow_object, Document.get?_insert_self]
  cases (f.entry name access secret).get? key <;> rfl

theorem textAt_setKeys_of_not_plain {key : String} (other : ¬ IsPlain name) (plainKey : IsPlain key) :
    (f.setKeys name access secret).textAt name key =
      ((follow (keysIn name ++ [key]) (.object (objectAt "aliases" f.data))).bind text?) := by
  obtain ⟨first, more, keys⟩ := exists_keysIn name
  -- the pointer leaves the aliases through another member than the one that was set
  have apart : name ≠ first := by
    rintro rfl
    exact other (isPlain_of_keysIn keys)
  rw [textAt_eq _ _ plainKey, get?_aliases_setKeys, keys]
  simp only [Option.bind_some, List.cons_append, follow_object, Document.get?_insert, apart, if_false]

theorem keysMatch_iff :
    f.keysMatch name access secret = true ↔
      f.textAt name "accessKey" = some access ∧ f.textAt name "secretKey" = some secret := by
  simp only [keysMatch, accessKey, secretKey, Bool.and_eq_true, beq_iff_eq]

/-- The keys that were set are found exactly when the name is plain, or when the aliases held them already at the place
that the name leads to instead. -/
theorem keysMatch_setKeys_iff :
    (f.setKeys name access secret).keysMatch name access secret = true ↔
      IsPlain name ∨ f.keysMatch name access secret = true ∧ ∃ aliases, f.data.get? "aliases" = some (.object aliases) := by
  have accessPlain : IsPlain "accessKey" := ⟨by decide, by decide, by decide⟩
  have secretPlain : IsPlain "secretKey" := ⟨by decide, by decide, by decide⟩
  by_cases plain : IsPlain name
  · refine iff_of_true ((keysMatch_iff _ _ _ _).2 ?_) (Or.inl plain)
    rw [textAt_setKeys_of_plain _ _ _ _ plain accessPlain, textAt_setKeys_of_plain _ _ _ _ plain secretPlain]
    simp [entry, Document.get?_insert, text?]
  · rw [keysMatch_iff, textAt_setKeys_of_not_plain _ _ _ _ plain accessPlain,
      textAt_setKeys_of_not_plain _ _ _ _ plain secretPlain, keysMatch_iff, textAt_eq _ _ accessPlain,
      textAt_eq _ _ secretPlain]
    obtain ⟨first, more, keys⟩ := exists_keysIn name
    rw [keys, objectAt]
    simp only [plain, false_or]
    split
    · rename_i members found
      simp [found]
    · rename_i none
      refine iff_of_false (fun found => ?_) fun held => ?_
      · cases found.1
      · obtain ⟨-, members, found⟩ := held
        exact none members found

theorem setKeys_setKeys :
    (f.setKeys name access secret).setKeys name access secret = f.setKeys name access secret := by
  have aliases : objectAt "aliases" (f.setKeys name access secret).data =
      (objectAt "aliases" f.data).insert name (.object (f.entry name access secret)) := by
    rw [objectAt, get?_aliases_setKeys]
  have held : objectAt name (objectAt "aliases" (f.setKeys name access secret).data) = f.entry name access secret := by
    rw [aliases, objectAt, Document.get?_insert_self]
  have first : (f.entry name access secret).get? "accessKey" = some (.string access) := by
    simp [entry, Document.get?_insert]
  have second : (f.entry name access secret).get? "secretKey" = some (.string secret) := by
    simp [entry]
  have same : (f.setKeys name access secret).entry name access secret = f.entry name access secret := by
    rw [entry, held, Document.insert_of_get? first, Document.insert_of_get? second]
  show AliasFile.mk f.path ((f.setKeys name access secret).data.insert "aliases" (.object
    ((objectAt "aliases" (f.setKeys name access secret).data).insert name
      (.object ((f.setKeys name access secret).entry name access secret))))) = _
  rw [same, aliases, Document.insert_of_get? (Document.get?_insert_self _ _ _),
    Document.insert_of_get? (get?_aliases_setKeys _ _ _ _)]
  rfl

/-! ## Within the limits of a reader -/

theorem fits_objectAt {depth : Nat} (key : String) {d : Document} (h : (Value.object d).Fits (depth + 2)) :
    (Value.object (objectAt key d)).Fits (depth + 1) := by
  rw [objectAt]
  split
  · rename_i members found
    exact Document.fits_iff.1 h _ (Document.mem_of_get? found)
  · exact Document.fits_iff.2 (List.forall_mem_nil _)

theorem isWellKeyed_objectAt (key : String) {d : Document} (h : d.isWellKeyed = true) :
    (objectAt key d).isWellKeyed = true := by
  rw [objectAt]
  split
  · rename_i members found
    exact Document.isWellKeyed_of_get? h found
  · rfl

/-- The keys of an alias lie in three objects, so writing them goes no deeper than three. -/
theorem fits_setKeys {depth : Nat} (h : (Value.object f.data).Fits (depth + 3)) :
    (Value.object (f.setKeys name access secret).data).Fits (depth + 3) := by
  have aliases := fits_objectAt "aliases" h
  have held : (Value.object (f.entry name access secret)).Fits (depth + 1) :=
    Document.fits_insert _ (Document.fits_insert _ (fits_objectAt name aliases) (.string _ _)) (.string _ _)
  exact Document.fits_insert "aliases" h (Document.fits_insert name aliases held)

theorem isWellKeyed_setKeys (h : f.data.isWellKeyed = true) :
    (f.setKeys name access secret).data.isWellKeyed = true := by
  have aliases := isWellKeyed_objectAt "aliases" h
  have held : (f.entry name access secret).isWellKeyed = true :=
    Document.isWellKeyed_insert _ (Document.isWellKeyed_insert _ (isWellKeyed_objectAt name aliases) rfl) rfl
  exact Document.isWellKeyed_insert "aliases" h (Document.isWellKeyed_insert name aliases held)

/-! ## Loading and saving -/

theorem load_eq_ok_iff {fs : Files} {path : String} :
    load fs path = .ok f ↔
      ∃ text, fs.readText path = .ok text ∧ Json.read? text = some (.object f.data) ∧ f.path = path := by
  constructor
  · intro h
    obtain ⟨text, readable, found⟩ := bind_eq_ok_iff.1 h
    refine ⟨text, mapError_eq_ok_iff.1 readable, ?_⟩
    split at found
    · cases found
    · rename_i data object
      cases found
      exact ⟨object, rfl⟩
    · cases found
  · rintro ⟨text, readable, object, rfl⟩
    refine bind_eq_ok_iff.2 ⟨text, mapError_eq_ok_iff.2 readable, ?_⟩
    rw [object]
    rfl

theorem load_of_save {fs after : Files} {path : String} {f : AliasFile} (loaded : load fs path = .ok f)
    (saved : (f.setKeys name access secret).save fs = .ok after) :
    load after path = .ok (f.setKeys name access secret) := by
  obtain ⟨text, -, object, rfl⟩ := (load_eq_ok_iff f).1 loaded
  -- setting the keys keeps a file within the limits of the reader that it came from
  have fits : (Value.object (f.setKeys name access secret).data).Fits (124 + 3) :=
    fits_setKeys f name access secret (Json.fits_read? object)
  have keyed := isWellKeyed_setKeys f name access secret (Json.isWellKeyed_read? object)
  have stored := Files.readText_of_write (mapError_eq_ok_iff.1 saved)
  exact (load_eq_ok_iff _).2 ⟨_, stored, Json.read?_pretty fits keyed, rfl⟩

/-- A call that comes to a result has loaded the file. It writes nothing when the keys were there, and otherwise saves
what setting them makes of the file. -/
theorem ensureKeys_cases {fs after : Files} {path : String} {written : Bool}
    (h : ensureKeys fs path name access secret = .ok (written, after)) :
    ∃ f, load fs path = .ok f ∧ f.keysMatch name access secret = !written ∧
      if written then (f.setKeys name access secret).save fs = .ok after else after = fs := by
  obtain ⟨f, loaded, rest⟩ := bind_eq_ok_iff.1 h
  refine ⟨f, loaded, ?_⟩
  split_ifs at rest with same
  · cases rest
    exact ⟨same, rfl⟩
  · obtain ⟨fs', saved, e⟩ := bind_eq_ok_iff.1 rest
    cases e
    exact ⟨Bool.eq_false_iff.2 same, saved⟩

theorem ensureKeys_of_match {fs : Files} {path : String} {f : AliasFile} (loaded : load fs path = .ok f)
    (same : f.keysMatch name access secret = true) : ensureKeys fs path name access secret = .ok (false, fs) := by
  refine bind_eq_ok_iff.2 ⟨f, loaded, ?_⟩
  rw [if_pos same]
  rfl

theorem ensureKeys_eq_ok_false_iff {fs : Files} {path : String} {f : AliasFile} (loaded : load fs path = .ok f) :
    ensureKeys fs path name access secret = .ok (false, fs) ↔ f.keysMatch name access secret = true := by
  refine ⟨fun h => ?_, ensureKeys_of_match _ _ _ loaded⟩
  obtain ⟨found, again, same, -⟩ := ensureKeys_cases _ _ _ h
  obtain rfl : f = found := Except.ok.inj (loaded.symm.trans again)
  exact same

theorem save_eq_error_of_ensureKeys {fs : Files} {path : String} {f : AliasFile} {fault : Error}
    (loaded : load fs path = .ok f) (fails : ensureKeys fs path name access secret = .error fault) :
    (f.setKeys name access secret).save fs = .error fault := by
  rcases bind_eq_error_iff.1 fails with unloaded | ⟨found, again, rest⟩
  · cases loaded.symm.trans unloaded
  · obtain rfl : f = found := Except.ok.inj (loaded.symm.trans again)
    split_ifs at rest with same
    · cases rest
    · rcases bind_eq_error_iff.1 rest with unsaved | ⟨after, -, none⟩
      · exact unsaved
      · cases none

theorem ensureKeys_eq_ok_true_iff {fs after : Files} {path : String} {f : AliasFile} (loaded : load fs path = .ok f) :
    ensureKeys fs path name access secret = .ok (true, after) ↔
      f.keysMatch name access secret = false ∧ (f.setKeys name access secret).save fs = .ok after := by
  constructor
  · intro h
    obtain ⟨found, again, differs, saved⟩ := ensureKeys_cases _ _ _ h
    obtain rfl : f = found := Except.ok.inj (loaded.symm.trans again)
    exact ⟨differs, saved⟩
  · rintro ⟨differs, saved⟩
    refine bind_eq_ok_iff.2 ⟨f, loaded, ?_⟩
    rw [if_neg (by simp [differs])]
    exact bind_eq_ok_iff.2 ⟨after, saved, rfl⟩

/-- After the keys of an alias were set they match, and after they were written a second call leaves the file alone,
exactly when the name is plain; a name that is not is written again by every call. Only keys that were there already,
at the place that such a name leads to, match without being set. -/
theorem ensureKeys_settles_iff {fs : Files} {path : String} {f : AliasFile} (loaded : load fs path = .ok f) :
    ((f.setKeys name access secret).keysMatch name access secret = true ↔ IsPlain name ∨
      f.keysMatch name access secret = true ∧ ∃ aliases, f.data.get? "aliases" = some (.object aliases)) ∧
    ∀ after, ensureKeys fs path name access secret = .ok (true, after) →
      ∃ again, ensureKeys after path name access secret = .ok (again, after) ∧ (again = false ↔ IsPlain name) := by
  refine ⟨keysMatch_setKeys_iff f name access secret, fun after written => ?_⟩
  obtain ⟨differs, saved⟩ := (ensureKeys_eq_ok_true_iff _ _ _ loaded).1 written
  have reloaded := load_of_save name access secret loaded saved
  have found := keysMatch_setKeys_iff f name access secret
  rw [differs] at found
  simp only [Bool.false_eq_true, false_and, or_false] at found
  by_cases plain : IsPlain name
  · exact ⟨false, ensureKeys_of_match _ _ _ reloaded (found.2 plain), by simp [plain]⟩
  · refine ⟨true, (ensureKeys_eq_ok_true_iff _ _ _ reloaded).2 ⟨?_, ?_⟩, by simp [plain]⟩
    · exact Bool.eq_false_iff.2 fun same => plain (found.1 same)
    · rw [setKeys_setKeys]
      exact mapError_eq_ok_iff.2 (Files.write_of_write (mapError_eq_ok_iff.1 saved))

/-! ## An empty file -/

def sampleFiles (text : String) : Files :=
  ⟨[(["w"], .directory), (["w", "config.json"], .file (.bytes (Bytes.ofText text)))], ["w"]⟩

theorem load_sampleFiles : load (sampleFiles "{}") "config.json" = .ok ⟨"config.json", []⟩ := by
  have readable : (sampleFiles "{}").readText "config.json" = .ok "{}" := by decide +kernel
  have object : Json.read? "{}" = some (.object []) := by rfl
  exact (load_eq_ok_iff _).2 ⟨"{}", readable, object, rfl⟩

theorem ensureKeys_settles_iff_s3 : ∃ after,
    ensureKeys (sampleFiles "{}") "config.json" "s3" "AK" "SK" = .ok (true, after) ∧
      ensureKeys after "config.json" "s3" "AK" "SK" = .ok (false, after) := by
  obtain ⟨-, settles⟩ := ensureKeys_settles_iff "s3" "AK" "SK" load_sampleFiles
  obtain ⟨after, stored⟩ : ∃ after, (setKeys ⟨"config.json", []⟩ "s3" "AK" "SK").save (sampleFiles "{}") = .ok after :=
    ⟨_, mapError_eq_ok_iff.2 (Files.write_eq_ok_iff.2 ⟨["w", "config.json"], by decide +kernel, by decide +kernel, rfl⟩)⟩
  have differs : (AliasFile.mk "config.json" []).keysMatch "s3" "AK" "SK" = false := by decide +kernel
  have written := (ensureKeys_eq_ok_true_iff "s3" "AK" "SK" load_sampleFiles).2 ⟨differs, stored⟩
  obtain ⟨again, second, exactly⟩ := settles after written
  have plain : IsPlain "s3" := ⟨by decide, by decide, by decide⟩
  rw [exactly.2 plain] at second
  exact ⟨after, written, second⟩

/-- A name with a slash is written under that name and looked for under another one. -/
theorem not_settled_of_slash :
    ¬ ∀ (fs : Files) (path name access secret : String) (f : AliasFile), load fs path = .ok f →
      (f.setKeys name access secret).keysMatch name access secret = true ∧
        ∀ after, ensureKeys fs path name access secret = .ok (true, after) →
          ensureKeys after path name access secret = .ok (false, after) := by
  intro always
  obtain ⟨found, -⟩ := always _ _ "a/b" "AK" "SK" _ load_sampleFiles
  have missing : (setKeys ⟨"config.json", []⟩ "a/b" "AK" "SK").keysMatch "a/b" "AK" "SK" = false := by decide +kernel
  rw [missing] at found
  cases found

end BucketBench.AliasFile
