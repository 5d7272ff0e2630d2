import Mathlib
import BucketBench.Proofs.Json.Reader
import BucketBench.Proofs.Outcome
import BucketBench.TestConfig.Gather

set_option autoImplicit false

namespace BucketBench.TestConfig

/-! ## What a source gives -/

def Narrows (key : Option String) (v w : Value) : Prop :=
  match key with
  | none => w = v
  | some key => ∃ inner : Document, v = .object inner ∧ inner.get? key = some w

def CountsAs (v : Value) (d : Document) : Prop := v = .object d ∨ v = .null ∧ d = []

def Gives (key : Option String) (v : Value) (d : Document) : Prop := ∃ w, Narrows key v w ∧ CountsAs w d

theorem lookUp_eq_ok_iff {key : String} {v w : Value} : lookUp key v = .ok w ↔ Narrows (some key) v w := by
  cases v with
  | object inner =>
    simp only [lookUp, Narrows, Value.object.injEq, exists_eq_left']
    cases Document.get? key inner <;> simp
  | _ => simp [lookUp, Narrows]

theorem narrow_eq_ok_iff {key : Option String} {v w : Value} : narrow key v = .ok w ↔ Narrows key v w := by
  cases key with
  | none =>
    simp only [narrow, Narrows, Except.ok.injEq]
    exact eq_comm
  | some key => exact lookUp_eq_ok_iff

theorem members_eq_ok_iff {subject : String} {v : Value} {d : Document} : members subject v = .ok d ↔ CountsAs v d := by
  cases v with
  | null =>
    simp only [members, CountsAs, Except.ok.injEq, reduceCtorEq, false_or, true_and]
    exact eq_comm
  | _ => simp [members, CountsAs]

theorem gives_iff {key : Option String} {subject : String} {v : Value} {d : Document} :
    (narrow key v >>= members subject) = .ok d ↔ Gives key v d := by
  simp only [bind_eq_ok_iff, narrow_eq_ok_iff, members_eq_ok_iff, Gives]

theorem narrows_unique {key : Option String} {v w w' : Value} (h : Narrows key v w) (h' : Narrows key v w') : w = w' := by
  have first : narrow key v = .ok w := narrow_eq_ok_iff.2 h
  rw [narrow_eq_ok_iff.2 h', Except.ok.injEq] at first
  exact first.symm

theorem gives_unique {key : Option String} {v : Value} {d d' : Document} (h : Gives key v d) (h' : Gives key v d') :
    d = d' := by
  have first : narrow key v >>= members "" = .ok d := gives_iff.2 h
  rw [gives_iff.2 h', Except.ok.injEq] at first
  exact first.symm

theorem isWellKeyed_of_narrows {key : Option String} {v w : Value} (keyed : v.isWellKeyed = true)
    (h : Narrows key v w) : w.isWellKeyed = true := by
  cases key with
  | none => exact h ▸ keyed
  | some key =>
    obtain ⟨inner, rfl, found⟩ := h
    exact Document.isWellKeyed_of_get? keyed found

theorem nodup_of_gives {key : Option String} {v : Value} {d : Document} (keyed : v.isWellKeyed = true)
    (h : Gives key v d) : d.keys.Nodup := by
  obtain ⟨w, narrows, counts⟩ := h
  rcases counts with rfl | ⟨-, rfl⟩
  · exact Document.nodup_keys (isWellKeyed_of_narrows keyed narrows)
  · exact List.nodup_nil

/-! ## Sources that can be read -/

section Gather

variable {fs : Files} {vault : Vault} {setupsFile : String} {setups : Document → Except Error Document} {r : Request}

/-- The file holds `yaml`, and `labs` holds the details of all lab systems: the contents of the setups file when it is
there, and otherwise the documents that the setups are listed as. -/
structure Readable (fs : Files) (vault : Vault) (setupsFile : String) (setups : Document → Except Error Document)
    (r : Request) (yaml labs : Value) : Prop where
  file : ∀ path, r.file = some path → readConfig fs vault path = .ok yaml
  labFile : ∀ target, r.target = some target → fs.exists? setupsFile = true → readJson fs setupsFile = .ok labs
  listing : ∀ target, r.target = some target → fs.exists? setupsFile = false →
    ∃ docs : Document, docs.isWellKeyed = true ∧ setups (setupQuery target) = .ok docs ∧ labs = .object docs

/-- What the file gives, which is nothing when none is asked for. -/
def FileGives (r : Request) (yaml : Value) (d : Document) : Prop :=
  match r.file with
  | none => d = []
  | some _ => Gives r.fileKey yaml d

def TargetGives (r : Request) (labs : Value) (d : Document) : Prop :=
  match r.target with
  | none => d = []
  | some target => ∃ details, Narrows (some target) labs details ∧ Gives r.targetKey details d

variable {yaml labs : Value}

theorem fileGives_unique {y y' : Document} (h : FileGives r yaml y) (h' : FileGives r yaml y') : y = y' := by
  cases asked : r.file with
  | none =>
    simp only [FileGives, asked] at h h'
    rw [h, h']
  | some path =>
    simp only [FileGives, asked] at h h'
    exact gives_unique h h'

theorem targetGives_unique {t t' : Document} (h : TargetGives r labs t) (h' : TargetGives r labs t') : t = t' := by
  cases asked : r.target with
  | none =>
    simp only [TargetGives, asked] at h h'
    rw [h, h']
  | some target =>
    simp only [TargetGives, asked] at h h'
    obtain ⟨details, narrows, gives⟩ := h
    obtain ⟨details', narrows', gives'⟩ := h'
    rw [narrows_unique narrows' narrows] at gives'
    exact gives_unique gives gives'

theorem isWellKeyed_readJson {path : String} {v : Value} (h : readJson fs path = .ok v) : v.isWellKeyed = true := by
  obtain ⟨contents, -, h⟩ := bind_eq_ok_iff.1 h
  split at h
  · rename_i read
    cases h
    obtain ⟨text, -, parsed⟩ := Option.bind_eq_some_iff.1 read
    exact Json.isWellKeyed_read? parsed
  · cases h

theorem Readable.isWellKeyed {target : String} (readable : Readable fs vault setupsFile setups r yaml labs)
    (asked : r.target = some target) : labs.isWellKeyed = true := by
  cases h : fs.exists? setupsFile with
  | true => exact isWellKeyed_readJson (readable.labFile target asked h)
  | false =>
    obtain ⟨docs, keyed, -, rfl⟩ := readable.listing target asked h
    exact keyed

theorem nodup_of_targetGives {d : Document} (readable : Readable fs vault setupsFile setups r yaml labs)
    (h : TargetGives r labs d) : d.keys.Nodup := by
  unfold TargetGives at h
  split at h
  · rw [h]
    exact List.nodup_nil
  · rename_i target asked
    obtain ⟨details, narrows, gives⟩ := h
    exact nodup_of_gives (isWellKeyed_of_narrows (readable.isWellKeyed asked) narrows) gives

theorem fromFile_eq_ok_iff {d : Document} (readable : Readable fs vault setupsFile setups r yaml labs) :
    fromFile fs vault r = .ok d ↔ FileGives r yaml d := by
  unfold FileGives
  cases asked : r.file with
  | none =>
    simp only [fromFile, asked, Except.ok.injEq]
    exact eq_comm
  | some path =>
    simp only [fromFile, asked, readable.file path asked]
    exact gives_iff

/-- The file comes first, whatever is to be said of the lab system. -/
theorem settle_gather_of_target {target : String} (readable : Readable fs vault setupsFile setups r yaml labs)
    (asked : r.target = some target) :
    (gather fs vault setupsFile r).settle setups =
      fromFile fs vault r >>= fun base => lookUp target labs >>= combine r target base := by
  unfold gather
  rw [asked]
  cases fromFile fs vault r with
  | error e => rfl
  | ok base =>
    cases there : fs.exists? setupsFile with
    | true =>
      simp only [if_true, Inquiry.settle, readable.labFile target asked there]
      rfl
    | false =>
      obtain ⟨docs, -, listed, rfl⟩ := readable.listing target asked there
      simp only [Bool.false_eq_true, if_false, Inquiry.settle, listed]
      rfl

theorem settle_gather_of_no_target (asked : r.target = none) (file : r.file ≠ none) :
    (gather fs vault setupsFile r).settle setups = fromFile fs vault r := by
  have given : r.file.isNone = false := Option.isNone_eq_false_iff.2 (Option.isSome_iff_ne_none.2 file)
  simp only [gather, asked, given, Bool.false_eq_true, if_false, Inquiry.settle]

theorem combine_eq_ok_iff {target : String} {base d : Document} {details : Value} :
    combine r target base details = .ok d ↔
      ∃ top, Gives r.targetKey details top ∧ d = Document.overlay base top := by
  have steps : combine r target base details =
      (narrow r.targetKey details >>= members target) >>= fun top => .ok (Document.overlay base top) := by
    unfold combine
    cases narrow r.targetKey details <;> rfl
  rw [steps, bind_eq_ok_iff]
  simp only [gives_iff, Except.ok.injEq, eq_comm (a := d)]

/-- What is gathered is what the lab system gives, laid over what the file gives. -/
theorem settle_gather_eq_ok_iff {d : Document} (readable : Readable fs vault setupsFile setups r yaml labs)
    (asked : r.file ≠ none ∨ r.target ≠ none) :
    (gather fs vault setupsFile r).settle setups = .ok d ↔
      ∃ base top, FileGives r yaml base ∧ TargetGives r labs top ∧ d = Document.overlay base top := by
  cases wanted : r.target with
  | none =>
    have file : r.file ≠ none := asked.resolve_right (not_not_intro wanted)
    simp only [settle_gather_of_no_target wanted file, fromFile_eq_ok_iff readable, TargetGives, wanted]
    constructor
    · intro base
      exact ⟨d, [], base, rfl, rfl⟩
    · rintro ⟨base, top, given, rfl, rfl⟩
      exact given
  | some target =>
    simp only [settle_gather_of_target readable wanted, bind_eq_ok_iff, fromFile_eq_ok_iff readable, lookUp_eq_ok_iff,
      combine_eq_ok_iff, TargetGives, wanted]
    constructor
    · rintro ⟨base, given, details, narrows, top, gives, rfl⟩
      exact ⟨base, top, given, ⟨details, narrows, gives⟩, rfl⟩
    · rintro ⟨base, top, given, ⟨details, narrows, gives⟩, rfl⟩
      exact ⟨base, given, details, narrows, top, gives, rfl⟩

theorem settle_gather_of_file_fails (readable : Readable fs vault setupsFile setups r yaml labs)
    (nothing : ¬ ∃ y, FileGives r yaml y) :
    ∃ e, (gather fs vault setupsFile { r with target := none }).settle setups = .error e ∧
      (gather fs vault setupsFile r).settle setups = .error e := by
  have file : r.file ≠ none := by
    intro none
    exact nothing ⟨[], by simp only [FileGives, none]⟩
  obtain ⟨y, given⟩ | ⟨e, fails⟩ := ok_or_fails (fromFile fs vault r)
  · exact absurd ⟨y, (fromFile_eq_ok_iff readable).1 given⟩ nothing
  · refine ⟨e, ?_, ?_⟩
    · have alone : (gather fs vault setupsFile { r with target := none }).settle setups = fromFile fs vault r :=
        settle_gather_of_no_target rfl file
      rw [alone, fails]
    · cases wanted : r.target with
      | none => rw [settle_gather_of_no_target wanted file, fails]
      | some target =>
        rw [settle_gather_of_target readable wanted, fails]
        rfl

/-- Without a file and a lab system there is nothing to gather. Otherwise a configuration is gathered exactly when
everything that was asked for gives a map: its keys are those of the file and behind them the new ones of the lab
system, and what the lab system has under a key stands there whole. A file that gives none decides the error. -/
theorem gather_overlays (readable : Readable fs vault setupsFile setups r yaml labs) :
    (r.file = none → r.target = none → (gather fs vault setupsFile r).settle setups =
      .error (.invalidArgument "either fpath or target is required")) ∧
    (r.file ≠ none ∨ r.target ≠ none →
      ((∃ d, (gather fs vault setupsFile r).settle setups = .ok d) ↔
        (∃ y, FileGives r yaml y) ∧ ∃ t, TargetGives r labs t) ∧
      (∀ d y t, (gather fs vault setupsFile r).settle setups = .ok d → FileGives r yaml y → TargetGives r labs t →
        d.keys = y.keys ++ t.keys.filter (· ∉ y.keys) ∧ ∀ key, d.get? key = (t.get? key).or (y.get? key)) ∧
      ((¬ ∃ y, FileGives r yaml y) →
        ∃ e, (gather fs vault setupsFile { r with target := none }).settle setups = .error e ∧
          (gather fs vault setupsFile r).settle setups = .error e)) := by
  refine ⟨?_, fun asked => ⟨⟨?_, ?_⟩, ?_, settle_gather_of_file_fails readable⟩⟩
  · intro file target
    simp only [gather, file, target, Option.isNone_none, if_true, Inquiry.settle]
  · rintro ⟨d, gathered⟩
    obtain ⟨y, t, file, target, -⟩ := (settle_gather_eq_ok_iff readable asked).1 gathered
    exact ⟨⟨y, file⟩, ⟨t, target⟩⟩
  · rintro ⟨⟨y, file⟩, t, target⟩
    exact ⟨_, (settle_gather_eq_ok_iff readable asked).2 ⟨y, t, file, target, rfl⟩⟩
  · intro d y t gathered file target
    obtain ⟨y', t', file', target', rfl⟩ := (settle_gather_eq_ok_iff readable asked).1 gathered
    cases fileGives_unique file file'
    cases targetGives_unique target target'
    have nodup : t.keys.Nodup := nodup_of_targetGives readable target
    exact ⟨Document.keys_overlay nodup y, Document.get?_overlay_of_nodup nodup y⟩

end Gather

def sampleFiles : Files := ⟨[(["w"], .directory), (["w", "s.yaml"], .file (.bytes (Bytes.ofText "a: 1\nb: 2\n")))], ["w"]⟩

theorem gather_overlays_sample :
    let lab : Document := [("b", .int 3), ("c", .int 4)]
    let r : Request := { file := some "s.yaml", target := some "lab" }
    ∃ d, (gather sampleFiles ⟨.fixed [], "MASTER_KEY"⟩ "setups.json" r).settle
        (fun _ => .ok [("lab", .object lab)]) = .ok d ∧
      d.keys = ["a", "b", "c"] ∧ d.get? "a" = some (.int 1) ∧ d.get? "b" = some (.int 3) := by
  intro lab r
  have read : readConfig sampleFiles ⟨.fixed [], "MASTER_KEY"⟩ "s.yaml" =
      .ok (.object [("a", .int 1), ("b", .int 2)]) := by cbv
  have readable : Readable sampleFiles ⟨.fixed [], "MASTER_KEY"⟩ "setups.json" (fun _ => .ok [("lab", .object lab)]) r
      (.object [("a", .int 1), ("b", .int 2)]) (.object [("lab", .object lab)]) := by
    refine ⟨?_, ?_, ?_⟩
    · rintro path ⟨⟩
      exact read
    · rintro target ⟨⟩ there
      exact absurd there (by decide)
    · rintro target ⟨⟩ -
      exact ⟨_, by decide, rfl, rfl⟩
  have file : FileGives r (.object [("a", .int 1), ("b", .int 2)]) [("a", .int 1), ("b", .int 2)] :=
    ⟨_, rfl, Or.inl rfl⟩
  have target : TargetGives r (.object [("lab", .object lab)]) lab := ⟨_, ⟨_, rfl, rfl⟩, _, rfl, Or.inl rfl⟩
  obtain ⟨exactly, overlays, -⟩ := (gather_overlays readable).2 (Or.inl (by decide))
  obtain ⟨d, gathered⟩ := exactly.2 ⟨⟨_, file⟩, ⟨_, target⟩⟩
  obtain ⟨keys, found⟩ := overlays d _ _ gathered file target
  exact ⟨d, gathered, by rw [keys]; decide, by rw [found]; rfl, by rw [found]; rfl⟩

end BucketBench.TestConfig
