import Mathlib
import BucketBench.Proofs.Settings.Leaves
import BucketBench.Proofs.Store.Write
import BucketBench.Proofs.Toml.WellKeyed
import BucketBench.Proofs.World.Files
import BucketBench.Settings.Load

set_option autoImplicit false

namespace BucketBench

namespace Document

def unsetAll (paths : List (List String)) (d : Document) : Document := paths.foldl (fun d path => d.unsetAt path) d

theorem isWellKeyed_unsetAll (paths : List (List String)) {d : Document} (keyed : d.isWellKeyed = true) :
    (d.unsetAll paths).isWellKeyed = true := by
  induction paths generalizing d with
  | nil => exact keyed
  | cons path rest ih => exact ih (isWellKeyed_unsetAt path keyed)

/-- Unsetting leaves a table a table. -/
theorem isObject_unsetAt {part : String} (path : List String) {d : Document} (keyed : d.isWellKeyed = true)
    (table : ∀ v, d.get? part = some v → v.isObject = true) {v : Value} (found : (d.unsetAt path).get? part = some v) :
    v.isObject = true := by
  rcases inside_or_around_or_apart path [part] with ⟨rest, inside⟩ | ⟨rest, more, rfl⟩ | apart
  · rcases List.append_eq_singleton_iff.1 inside.symm with ⟨rfl, -⟩ | ⟨rfl, -⟩
    · exact table v found
    · have gone := at?_unsetAt_self [part] keyed
      rw [at?_singleton, found] at gone
      cases gone
  · cases before : d.at? [part] with
    | none =>
      have same : d.unsetAt ([part] ++ rest) = d := unsetAt_of_not_object_above (by simp) more (by simp [before])
      rw [same] at found
      exact table v found
    | some w =>
      cases w with
      | object inner =>
        obtain ⟨inner', after⟩ := at?_unsetAt_above more before
        rw [at?_singleton, found] at after
        cases after
        rfl
      | _ => cases table _ before
  · have same := at?_unsetAt_of_apart apart keyed
    rw [at?_singleton, at?_singleton, found] at same
    exact table v same.symm

theorem at?_unsetAt_leaf {part key : String} (path : List String) {d : Document} (keyed : d.isWellKeyed = true)
    (bare : ∀ inner, d.at? [part, key] ≠ some (.object inner)) :
    (d.unsetAt path).at? [part, key] = if [part] = path ∨ [part, key] = path then none else d.at? [part, key] := by
  rcases inside_or_around_or_apart path [part, key] with ⟨rest, inside⟩ | ⟨rest, more, rfl⟩ | apart
  · match path, inside with
    | [], _ => simp [unsetAt]
    | [_], rfl =>
      rw [if_pos (Or.inl rfl)]
      exact at?_of_absent [key] (at?_unsetAt_self [part] keyed)
    | [_, _], rfl =>
      rw [if_pos (Or.inr rfl)]
      exact at?_unsetAt_self _ keyed
  · rw [unsetAt_of_not_object_above (by simp) more bare, if_neg]
    simp [more.symm]
  · rw [at?_unsetAt_of_apart apart keyed, if_neg]
    rintro (rfl | rfl)
    · exact apart.1 ⟨[key], rfl⟩
    · exact apart.1 List.prefix_rfl

theorem at?_unsetAll_leaf {part key : String} (paths : List (List String)) {d : Document} (keyed : d.isWellKeyed = true)
    (bare : ∀ inner, d.at? [part, key] ≠ some (.object inner)) :
    (d.unsetAll paths).at? [part, key] =
      if [part] ∈ paths ∨ [part, key] ∈ paths then none else d.at? [part, key] := by
  induction paths generalizing d with
  | nil => simp [unsetAll]
  | cons path rest ih =>
    have step := at?_unsetAt_leaf path keyed bare
    have later : ∀ inner, (d.unsetAt path).at? [part, key] ≠ some (.object inner) := by
      rw [step]
      split
      · exact nofun
      · exact bare
    have rest := ih (isWellKeyed_unsetAt path keyed) later
    rw [unsetAll, List.foldl_cons, ← unsetAll, rest, step]
    simp only [List.mem_cons]
    split_ifs <;> first | rfl | tauto

end Document

namespace Settings

theorem inTables_unsetAll (paths : List (List String)) {d : Document} (keyed : d.isWellKeyed = true) (tables : InTables d) :
    InTables (d.unsetAll paths) := by
  induction paths generalizing d with
  | nil => exact tables
  | cons path rest ih =>
    apply ih (Document.isWellKeyed_unsetAt path keyed)
    intro part known v
    exact Document.isObject_unsetAt path keyed (tables part known)

/-! ## Written settings -/

theorem isWellKeyed_toDocument {s : Settings} (fits : (s.s3.maxAttempts : Int) ∈ IntRange.word32) :
    s.toDocument.isWellKeyed = true := by
  apply (faithful .json).isWellKeyed
  simp only [toDocument, List.forall_mem_cons]
  exact ⟨(S3Settings.faithful .json).isWellKeyed fun m mem => (S3Settings.reads_self .json fits m mem).isWellKeyed,
    (DatabaseSettings.faithful .json).isWellKeyed fun m mem => (DatabaseSettings.reads_self .json _ m mem).isWellKeyed,
    (PathSettings.faithful .json).isWellKeyed fun m mem => (PathSettings.reads_self .json _ m mem).isWellKeyed,
    (SecretSettings.faithful .json).isWellKeyed fun m mem => (SecretSettings.reads_self .json _ m mem).isWellKeyed,
    (LogSettings.faithful .json).isWellKeyed fun m mem => (LogSettings.reads_self .json _ m mem).isWellKeyed,
    List.forall_mem_nil _⟩

theorem inTables_toDocument (s : Settings) : InTables s.toDocument := by
  intro part known v found
  have member : (part, v) ∈ s.toDocument := Document.mem_of_get? found
  simp only [toDocument, List.mem_cons, Prod.mk.injEq, List.not_mem_nil, or_false] at member
  rcases member with ⟨-, rfl⟩ | ⟨-, rfl⟩ | ⟨-, rfl⟩ | ⟨-, rfl⟩ | ⟨-, rfl⟩
  all_goals rfl

theorem reads_self (n : Dialect) {s : Settings} (fits : (s.s3.maxAttempts : Int) ∈ IntRange.word32) {part key : String}
    {v : Value} (found : s.toDocument.at? [part, key] = some v) : (kind part key).Reads n v v := by
  obtain ⟨inner, table⟩ : ∃ inner, s.toDocument.at? [part] = some (.object inner) :=
    Document.exists_object_above (List.cons_ne_nil part []) (List.cons_ne_nil key []) found
  rw [Document.at?_pair table] at found
  have leaf : (key, v) ∈ inner := Document.mem_of_get? found
  have member : (part, .object inner) ∈ s.toDocument := Document.mem_of_get? table
  simp only [toDocument, List.mem_cons, Prod.mk.injEq, Value.object.injEq, List.not_mem_nil, or_false] at member
  rcases member with ⟨rfl, rfl⟩ | ⟨rfl, rfl⟩ | ⟨rfl, rfl⟩ | ⟨rfl, rfl⟩ | ⟨rfl, rfl⟩
  · exact S3Settings.reads_self n fits _ leaf
  · exact DatabaseSettings.reads_self n s.database _ leaf
  · exact PathSettings.reads_self n s.paths _ leaf
  · exact SecretSettings.reads_self n s.secrets _ leaf
  · exact LogSettings.reads_self n s.logging _ leaf

/-! ## The environment -/

def variableFor : String → String → Option String
  | "s3", "endpoint" => some endpointVariable
  | "s3", "access_key" => some accessKeyVariable
  | "s3", "secret_key" => some secretKeyVariable
  | _, _ => none

/-- The three leaves are written over, in the part that has them. -/
theorem toDocument_override (env : Environment) (s : Settings) :
    (s.override env).toDocument = s.toDocument.insert "s3" (.object
      (((s.s3.toDocument.insert "endpoint" (.string ((env.text? endpointVariable).getD s.s3.endpoint))).insert
        "access_key" (.string ((env.text? accessKeyVariable).getD s.s3.accessKey))).insert
        "secret_key" (.string ((env.text? secretKeyVariable).getD s.s3.secretKey)))) := rfl

theorem at?_override (env : Environment) (s : Settings) (part key : String) :
    (s.override env).toDocument.at? [part, key] =
      (((variableFor part key).bind env.text?).map .string).or (s.toDocument.at? [part, key]) := by
  have written (text : Option String) (old : String) :
      some (Value.string (text.getD old)) = (text.map .string).or (some (.string old)) := by
    cases text <;> rfl
  have s3 : s.toDocument.get? "s3" = some (.object s.s3.toDocument) := rfl
  rw [toDocument_override]
  by_cases here : part = "s3"
  · subst here
    rw [Document.at?_pair (Document.get?_insert_self ..), Document.at?_pair s3]
    simp only [Document.get?_insert, written]
    split_ifs with secretKey accessKey endpoint
    · subst secretKey
      rfl
    · subst accessKey
      rfl
    · subst endpoint
      rfl
    · have none : variableFor "s3" key = none := by
        unfold variableFor
        split <;> first | rfl | contradiction
      rw [none]
      rfl
  · have none : variableFor part key = none := by
      unfold variableFor
      split <;> first | rfl | exact absurd rfl here
    rw [none]
    exact Document.at?_of_get?_eq [key] (by rw [Document.get?_insert, if_neg (Ne.symm here)])

def Overridden (env : Environment) (part key text : String) : Prop :=
  ∃ name, variableFor part key = some name ∧ env.bytes? name = some (Bytes.ofText text)

theorem overridden_iff {env : Environment} {part key text : String} :
    (variableFor part key).bind env.text? = some text ↔ Overridden env part key text := by
  simp only [Option.bind_eq_some_iff, Environment.text?, Bytes.text?_eq_some_iff, Overridden, exists_eq_right]

/-! ## Loading -/

/-- A value given for a leaf is its value. Only the format of the log may also be given as a table with its name as the
one key. -/
inductive Spells (part key : String) : Value → Value → Prop
  | itself {v : Value} (plain : v.isObject = false) : Spells part key v v
  | table {name : String} {unit : Value} (isFormat : part = "logging" ∧ key = "format")
      (isUnit : LogFormat.isUnit .toml unit = true) : Spells part key (.object [(name, unit)]) (.string name)

theorem isFormat_of_kind {part key : String} (h : kind part key = .format) : part = "logging" ∧ key = "format" := by
  unfold kind at h
  split at h
  · unfold S3Settings.kind at h
    split at h <;> cases h
  · unfold LogSettings.kind at h
    split at h
    · exact ⟨rfl, rfl⟩
    · cases h
  · cases h

theorem spells_of_reads {part key : String} {w v : Value} (h : (kind part key).Reads .toml w v) :
    Spells part key w v := by
  generalize e : kind part key = k at h
  cases h with
  | formatTable f unit => exact .table (isFormat_of_kind e) unit
  | _ => exact .itself rfl

/-- The value of a leaf: the text of its variable, or else what the document says, or else the default. -/
inductive LeafOf (env : Environment) (doc : Document) (part key : String) : Value → Prop
  | fromVariable {text : String} : Overridden env part key text → LeafOf env doc part key (.string text)
  | fromDocument {w v : Value} : (¬ ∃ text, Overridden env part key text) → doc.at? [part, key] = some w →
      Spells part key w v → LeafOf env doc part key v
  | byDefault {v : Value} : (¬ ∃ text, Overridden env part key text) → doc.at? [part, key] = none →
      ({} : Settings).toDocument.at? [part, key] = some v → LeafOf env doc part key v

theorem Spells.unique {part key : String} {w v v' : Value} (h : Spells part key w v) (h' : Spells part key w v') :
    v = v' := by
  cases h with
  | itself plain =>
    cases h' with
    | itself => rfl
    | table => cases plain
  | table =>
    cases h' with
    | itself plain => cases plain
    | table => rfl

theorem LeafOf.unique {env : Environment} {doc : Document} {part key : String} {v v' : Value}
    (h : LeafOf env doc part key v) (h' : LeafOf env doc part key v') : v = v' := by
  cases h with
  | fromVariable overridden =>
    cases h' with
    | fromVariable overridden' =>
      have same := (overridden_iff.2 overridden).symm.trans (overridden_iff.2 overridden')
      rw [Option.some.inj same]
    | fromDocument not => exact absurd ⟨_, overridden⟩ not
    | byDefault not => exact absurd ⟨_, overridden⟩ not
  | fromDocument not given spelled =>
    cases h' with
    | fromVariable overridden => exact absurd ⟨_, overridden⟩ not
    | fromDocument _ given' spelled' =>
      obtain rfl := Option.some.inj (given.symm.trans given')
      exact spelled.unique spelled'
    | byDefault _ absent => cases given.symm.trans absent
  | byDefault not absent default =>
    cases h' with
    | fromVariable overridden => exact absurd ⟨_, overridden⟩ not
    | fromDocument _ given => cases given.symm.trans absent
    | byDefault _ _ default' => exact Option.some.inj (default.symm.trans default')

section Load

variable {fs : Files} {path text : String} {doc : Document}

theorem load_eq (env : Environment) (file : fs.readText path = .ok text) :
    load fs env (some path) = (parse text).map (override env) := by
  have read : ofFile fs path = parse text := by
    unfold ofFile
    rw [file]
  show (ofFile fs path >>= fun s => pure (s.override env)) = _
  rw [read]
  rfl

/-- A text that does not fit is refused without the reason. -/
theorem parse_eq (written : Toml.read? text = some (.object doc)) :
    parse text = (decode .toml (.object doc)).mapError fun _ => .config .settings := by
  unfold parse
  rw [written]
  dsimp only
  cases decode .toml (.object doc) <;> rfl

theorem leafOf_override (env : Environment) {accepted : Settings} (keyed : doc.isWellKeyed = true) (tables : InTables doc)
    (read : decode .toml (.object doc) = .ok accepted) {part key : String} (leaf : IsLeaf part key) :
    ∃ v, (accepted.override env).toDocument.at? [part, key] = some v ∧ LeafOf env doc part key v := by
  have layer := (decode_eq_ok_iff .toml keyed tables accepted).1 read part key leaf
  rw [at?_override]
  by_cases overridden : ∃ text, Overridden env part key text
  · obtain ⟨text, overridden⟩ := overridden
    rw [overridden_iff.2 overridden]
    exact ⟨_, rfl, .fromVariable overridden⟩
  · have none : (variableFor part key).bind env.text? = none := by
      refine Option.eq_none_iff_forall_ne_some.2 fun text found => overridden ⟨text, overridden_iff.1 found⟩
    rw [none, Option.map_none, Option.none_or]
    cases given : doc.at? [part, key] with
    | none =>
      rw [given, layered_none_iff] at layer
      obtain ⟨v, default⟩ := leaf
      exact ⟨v, layer.trans default, .byDefault overridden given default⟩
    | some w =>
      rw [given, layered_some_iff] at layer
      obtain ⟨v, reads, now⟩ := layer
      exact ⟨v, now, .fromDocument overridden given (spells_of_reads reads)⟩

/-- Texts that say the same at every leaf are read alike. -/
theorem parse_eq_of_agree {text' : String} {doc' : Document} (written : Toml.read? text = some (.object doc))
    (written' : Toml.read? text' = some (.object doc')) (tables : InTables doc) (tables' : InTables doc')
    (agree : ∀ part key, IsLeaf part key → doc'.at? [part, key] = doc.at? [part, key]) :
    parse text' = parse text := by
  have keyed := Toml.isWellKeyed_read? written
  have keyed' := Toml.isWellKeyed_read? written'
  have alike (s : Settings) : decode .toml (.object doc') = .ok s ↔ decode .toml (.object doc) = .ok s := by
    rw [decode_eq_ok_iff .toml keyed' tables', decode_eq_ok_iff .toml keyed tables]
    exact forall₃_congr fun part key leaf => by rw [agree part key leaf]
  rw [parse_eq written, parse_eq written']
  cases read : decode .toml (.object doc) with
  | ok s => rw [(alike s).2 read]
  | error reason =>
    cases read' : decode .toml (.object doc') with
    | ok s => cases read.symm.trans ((alike s).1 read')
    | error reason' => rfl

end Load

/-- What is left of written settings is read as they were, but for the leaves that were removed or whose part was. -/
theorem decode_unsetAll {c : Settings} (fits : (c.s3.maxAttempts : Int) ∈ IntRange.word32)
    (removed : List (List String)) :
    ∃ s, decode .json (.object (c.toDocument.unsetAll removed)) = .ok s ∧
      ∀ part key, IsLeaf part key → s.toDocument.at? [part, key] =
        if [part] ∈ removed ∨ [part, key] ∈ removed then ({} : Settings).toDocument.at? [part, key]
        else c.toDocument.at? [part, key] := by
  have keyed := isWellKeyed_toDocument fits
  have left : ∀ part key, (c.toDocument.unsetAll removed).at? [part, key] =
      if [part] ∈ removed ∨ [part, key] ∈ removed then none else c.toDocument.at? [part, key] := by
    intro part key
    apply Document.at?_unsetAll_leaf removed keyed
    intro inner found
    cases (reads_self .json fits found).isObject_eq_false
  have keyedLeft := Document.isWellKeyed_unsetAll removed keyed
  have tablesLeft := inTables_unsetAll removed keyed (inTables_toDocument c)
  have readable : ∀ part key, IsLeaf part key → ∀ w, (c.toDocument.unsetAll removed).at? [part, key] = some w →
      ∃ v, (kind part key).Reads .json w v := by
    intro part key _ w found
    rw [left] at found
    split at found
    · cases found
    · exact ⟨w, reads_self .json fits found⟩
  obtain ⟨s, read⟩ := exists_decode .json keyedLeft tablesLeft readable
  refine ⟨s, read, fun part key leaf => ?_⟩
  have layer := (decode_eq_ok_iff .json keyedLeft tablesLeft s).1 read part key leaf
  rw [left] at layer
  split at layer
  · rw [if_pos ‹_›]
    exact layered_none_iff.1 layer
  · rw [if_neg ‹_›]
    obtain ⟨v, there⟩ := leaf.exists_at? c
    rw [there, layered_some_iff] at layer
    obtain ⟨v', reads, now⟩ := layer
    rw [there, now, reads.eq_of_not_object (reads_self .json fits there).isObject_eq_false]

theorem decode_toDocument {c : Settings} (fits : (c.s3.maxAttempts : Int) ∈ IntRange.word32) :
    decode .json (.object c.toDocument) = .ok c := by
  refine (decode_eq_ok_iff .json (isWellKeyed_toDocument fits) (inTables_toDocument c) c).2 fun part key leaf => ?_
  obtain ⟨v, there⟩ := leaf.exists_at? c
  rw [there]
  exact .given (reads_self .json fits there)

/-- Settings are layered leaf by leaf. A settings text that is written in tables and accepted gives each leaf the text of
its variable, or else what the text says of it, or else its default; nothing else in the text matters. What is left of
written settings when parts and leaves are taken out of them is read as the settings that they were written from, with
the default of every leaf that is gone. -/
theorem leaves_layered :
    (∀ (fs : Files) (env : Environment) (path text : String) (doc : Document) (accepted : Settings),
      fs.readText path = .ok text → Toml.read? text = some (.object doc) → InTables doc → parse text = .ok accepted →
        (∃ s, load fs env (some path) = .ok s ∧
          ∀ part key, IsLeaf part key → ∃ v, s.toDocument.at? [part, key] = some v ∧ LeafOf env doc part key v) ∧
        ∀ (fs' : Files) (path' text' : String) (doc' : Document),
          fs'.readText path' = .ok text' → Toml.read? text' = some (.object doc') → InTables doc' →
          (∀ part key, IsLeaf part key → doc'.at? [part, key] = doc.at? [part, key]) →
            load fs' env (some path') = load fs env (some path)) ∧
    ∀ c : Settings, (c.s3.maxAttempts : Int) ∈ IntRange.word32 →
      decode .json (.object c.toDocument) = .ok c ∧
      ∀ removed : List (List String), ∃ s, decode .json (.object (c.toDocument.unsetAll removed)) = .ok s ∧
        ∀ part key, IsLeaf part key → s.toDocument.at? [part, key] =
          if [part] ∈ removed ∨ [part, key] ∈ removed then ({} : Settings).toDocument.at? [part, key]
          else c.toDocument.at? [part, key] := by
  refine ⟨?_, fun c fits => ⟨decode_toDocument fits, decode_unsetAll fits⟩⟩
  intro fs env path text doc accepted file written tables ok
  have read : decode .toml (.object doc) = .ok accepted := by
    rw [parse_eq written] at ok
    exact mapError_eq_ok_iff.1 ok
  have loaded : load fs env (some path) = .ok (accepted.override env) := by
    rw [load_eq env file, ok]
    rfl
  refine ⟨⟨_, loaded, fun part key leaf => ?_⟩, ?_⟩
  · exact leafOf_override env (Toml.isWellKeyed_read? written) tables read leaf
  · intro fs' path' text' doc' file' written' tables' agree
    rw [load_eq env file', load_eq env file, parse_eq_of_agree written written' tables tables' agree]

def sampleText : String := "[s3]\nregion = 'eu'\n[logging]\nformat.json = []\n"

def sampleOther : String := "y = 1\n[logging.format]\njson = []\n[logging]\nx = 1\n[s3]\nregion = 'eu'\n"

def sampleDocument : Document :=
  [("s3", .object [("region", .string "eu")]), ("logging", .object [("format", .object [("json", .array [])])])]

def sampleOtherDocument : Document :=
  [("y", .int 1), ("logging", .object [("format", .object [("json", .array [])]), ("x", .int 1)]),
   ("s3", .object [("region", .string "eu")])]

def sampleFile (text : String) : Files := (Files.empty ["etc"]).put ["etc", "a.toml"] (.file (.bytes (Bytes.ofText text)))

theorem readText_sampleFile (text : String) : (sampleFile text).readText "a.toml" = .ok text := by
  have written : (Files.empty ["etc"]).write "a.toml" (.bytes (Bytes.ofText text)) = .ok (sampleFile text) := rfl
  exact Files.readText_of_write written

def sampleEnvironment : Environment := ⟨[("S3QA_ENDPOINT", [])]⟩

theorem leaves_layered_sample :
    (∃ s, load (sampleFile sampleText) sampleEnvironment (some "a.toml") = .ok s ∧
      load (sampleFile sampleOther) sampleEnvironment (some "a.toml") = .ok s ∧
      s.toDocument.at? ["s3", "endpoint"] = some (.string "") ∧
      s.toDocument.at? ["s3", "region"] = some (.string "eu") ∧
      s.toDocument.at? ["s3", "max_attempts"] = some (.int 1) ∧
      s.toDocument.at? ["logging", "format"] = some (.string "json")) ∧
    ∃ left, decode .json (.object (({ logging := ⟨"debug", .json⟩, paths := ⟨"a", "b", "c"⟩ } : Settings).toDocument.unsetAll
        [["paths"], ["logging", "level"]])) = .ok left ∧
      left.toDocument.at? ["paths", "config_dir"] = some (.string "config") ∧
      left.toDocument.at? ["logging", "level"] = some (.string "info") ∧
      left.toDocument.at? ["logging", "format"] = some (.string "json") := by
  have read : Toml.read? sampleText = some (.object sampleDocument) := by cbv
  have readOther : Toml.read? sampleOther = some (.object sampleOtherDocument) := by cbv
  have accepted : parse sampleText = .ok { s3 := { region := "eu" }, logging := { format := .json } } := by
    rw [parse_eq read]
    rfl
  have agree : ∀ part ∈ (decoder .toml).keys, ∀ key, IsLeaf part key →
      sampleOtherDocument.at? [part, key] = sampleDocument.at? [part, key] := by
    refine (forall_parts_iff .toml).2
      ⟨fun _ _ => rfl, fun _ _ => rfl, fun _ _ => rfl, fun _ _ => rfl, fun key leaf => ?_⟩
    have known : key ∈ ["level", "format"] := (leaf_iff (LogSettings.faithful .toml) rfl key).1 leaf
    rcases List.mem_pair.1 known with rfl | rfl <;> rfl
  have endpoint : LeafOf sampleEnvironment sampleDocument "s3" "endpoint" (.string "") :=
    .fromVariable ⟨_, rfl, by decide +kernel⟩
  have region : LeafOf sampleEnvironment sampleDocument "s3" "region" (.string "eu") :=
    .fromDocument (by rintro ⟨_, _, ⟨⟩, _⟩) rfl (.itself rfl)
  have attempts : LeafOf sampleEnvironment sampleDocument "s3" "max_attempts" (.int 1) :=
    .byDefault (by rintro ⟨_, _, ⟨⟩, _⟩) rfl rfl
  have format : LeafOf sampleEnvironment sampleDocument "logging" "format" (.string "json") :=
    .fromDocument (by rintro ⟨_, _, ⟨⟩, _⟩) rfl (.table ⟨rfl, rfl⟩ rfl)
  obtain ⟨loads, written⟩ := leaves_layered
  obtain ⟨⟨s, loaded, leaf⟩, alike⟩ := loads (sampleFile sampleText) sampleEnvironment "a.toml" sampleText sampleDocument _
    (readText_sampleFile sampleText) read (by decide) accepted
  have found {part key : String} {v : Value} (isLeaf : IsLeaf part key)
      (value : LeafOf sampleEnvironment sampleDocument part key v) : s.toDocument.at? [part, key] = some v := by
    obtain ⟨w, there, value'⟩ := leaf part key isLeaf
    rw [there, value'.unique value]
  obtain ⟨-, removal⟩ := written { logging := ⟨"debug", .json⟩, paths := ⟨"a", "b", "c"⟩ } (by decide)
  obtain ⟨left, rest, kept⟩ := removal [["paths"], ["logging", "level"]]
  refine ⟨⟨s, loaded, ?_, found ⟨_, rfl⟩ endpoint, found ⟨_, rfl⟩ region, found ⟨_, rfl⟩ attempts,
    found ⟨_, rfl⟩ format⟩, left, rest, kept _ _ ⟨_, rfl⟩, kept _ _ ⟨_, rfl⟩, kept _ _ ⟨_, rfl⟩⟩
  rw [← loaded]
  exact alike (sampleFile sampleOther) "a.toml" sampleOther sampleOtherDocument (readText_sampleFile sampleOther) readOther
    (by decide) fun part key leaf => agree part (leaf.mem_keys .toml) key leaf

end Settings

end BucketBench
