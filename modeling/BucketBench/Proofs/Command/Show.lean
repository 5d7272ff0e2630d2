import Mathlib
import BucketBench.Command.Run
import BucketBench.Proofs.Command.Session
import BucketBench.Proofs.Store.Connection

set_option autoImplicit false

/-!
# Showing a configuration without the database

What is shown depends on the files that the request names and on the master key. The database is called only for a lab
system that no setups file describes; otherwise neither its settings, nor its credentials, nor what it holds can be told
from the outcome, whether that is a configuration or a failure.
-/

namespace BucketBench

namespace Files

variable {fs fs' : Files} {path : String}

theorem exists?_congr (same : fs.get path = fs'.get path) : fs.exists? path = fs'.exists? path :=
  congrArg Except.isOk same

theorem read_congr (same : fs.get path = fs'.get path) : fs.read path = fs'.read path := by
  rw [read, read, same]

theorem readText_congr (same : fs.get path = fs'.get path) : fs.readText path = fs'.readText path := by
  rw [readText, readText, read_congr same]

end Files

theorem Vault.decryptAll_congr {vault vault' : Vault} (same : vault.masterKey = vault'.masterKey) (v : Value) :
    vault.decryptAll v = vault'.decryptAll v := by
  rw [decryptAll, decryptAll, same]

namespace TestConfig

variable {fs fs' : Files} {vault vault' : Vault} {path setupsFile : String} {r : Request}

theorem readJson_congr (same : fs.get path = fs'.get path) : readJson fs path = readJson fs' path := by
  rw [readJson, readJson, Files.read_congr same]

theorem readConfig_congr (same : fs.get path = fs'.get path) (key : vault.masterKey = vault'.masterKey) :
    readConfig fs vault path = readConfig fs' vault' path := by
  have yaml : readYaml fs path = readYaml fs' path := by rw [readYaml, readYaml, Files.readText_congr same]
  have decrypt : vault.decryptAll = vault'.decryptAll := funext (Vault.decryptAll_congr key)
  rw [readConfig, readConfig, yaml, decrypt]

theorem fromFile_congr (same : ∀ path, r.file = some path → fs.get path = fs'.get path)
    (key : vault.masterKey = vault'.masterKey) : fromFile fs vault r = fromFile fs' vault' r := by
  unfold fromFile
  cases asked : r.file with
  | none => rfl
  | some path =>
    simp only
    rw [readConfig_congr (same path asked) key]

theorem gather_congr (file : ∀ path, r.file = some path → fs.get path = fs'.get path)
    (setups : fs.get setupsFile = fs'.get setupsFile) (key : vault.masterKey = vault'.masterKey) :
    gather fs vault setupsFile r = gather fs' vault' setupsFile r := by
  rw [gather, gather, fromFile_congr file key, Files.exists?_congr setups, readJson_congr setups]

/-- No question is left when no lab system is asked for or the setups file is there. -/
theorem gather_answered (h : r.target = none ∨ fs.exists? setupsFile = true) :
    ∃ result, gather fs vault setupsFile r = .answered result := by
  unfold gather
  split
  · split_ifs <;> exact ⟨_, rfl⟩
  · rename_i target asked
    have present : fs.exists? setupsFile = true := h.resolve_left (by simp [asked])
    split
    · exact ⟨_, rfl⟩
    · rw [if_pos present]
      exact ⟨_, rfl⟩

end TestConfig

def DatabaseSettings.credentials (db : DatabaseSettings) : List String := [db.userSecret, db.passwordSecret]

namespace Command

variable {r : TestConfig.Request} {w w' : World} {s s' : Settings}

/-- What a request reads is the same in two worlds: its file, the setups file, and but for the section and the secrets of
the database the settings and the secrets. -/
structure AlikeBesideDatabase (r : TestConfig.Request) (w w' : World) (s s' : Settings) : Prop where
  file : ∀ path, r.file = some path → w.files.get path = w'.files.get path
  setupsFile : w.files.get s.paths.setupsFile = w'.files.get s.paths.setupsFile
  settings : { s with database := s'.database } = s'
  secrets : ∀ id, id ∉ s.database.credentials → id ∉ s'.database.credentials →
    (s.vault w).provider.secret id = (s'.vault w').provider.secret id
  masterKey : s.secrets.masterKeyId ∉ s.database.credentials ∧ s.secrets.masterKeyId ∉ s'.database.credentials

namespace AlikeBesideDatabase

theorem paths (alike : AlikeBesideDatabase r w w' s s') : s'.paths = s.paths := by
  rw [← alike.settings]

theorem masterKeyId (alike : AlikeBesideDatabase r w w' s s') : (s'.vault w').masterKeyId = (s.vault w).masterKeyId := by
  rw [← alike.settings]
  rfl

theorem masterKey_eq (alike : AlikeBesideDatabase r w w' s s') : (s.vault w).masterKey = (s'.vault w').masterKey := by
  have secret := alike.secrets s.secrets.masterKeyId alike.masterKey.1 alike.masterKey.2
  rw [Vault.masterKey, Vault.masterKey, alike.masterKeyId]
  exact congrArg (· >>= MasterKey.ofHex) secret

theorem gather_eq (alike : AlikeBesideDatabase r w w' s s') :
    TestConfig.gather w.files (s.vault w) s.paths.setupsFile r =
      TestConfig.gather w'.files (s'.vault w') s'.paths.setupsFile r := by
  rw [alike.paths]
  exact TestConfig.gather_congr alike.file alike.setupsFile alike.masterKey_eq

end AlikeBesideDatabase

theorem needsDatabase_eq_false_iff {setupsFile : String} :
    needsDatabase w setupsFile r = false ↔ r.target = none ∨ w.files.exists? setupsFile = true := by
  rw [needsDatabase, Bool.and_eq_false_iff, Option.isSome_eq_false_iff, Option.isNone_iff_eq_none, Bool.not_eq_false']

/-- A session that asks nothing and calls nothing is a result beside a database that it leaves alone. -/
theorem run_runShow_of_answered {result : Except Error Document} (needless : needsDatabase w s.paths.setupsFile r = false)
    (answered : TestConfig.gather w.files (s.vault w) s.paths.setupsFile r = .answered result) (db : Database) :
    (runShow w s r).run db =
      ((Failure.within "Failed to read configuration" result).map fun merged =>
        Output.line (Json.pretty (.object merged)), db) := by
  simp only [runShow, needless, Bool.false_eq_true, if_false, answered]
  cases result <;> rfl

/-- When no lab system is asked for or the setups file is there, the outcome is the same whatever the database is, and
the database is not called. -/
theorem runShow_blind_to_database (alike : AlikeBesideDatabase r w w' s s')
    (h : r.target = none ∨ w.files.exists? s.paths.setupsFile = true) :
    ∃ outcome, ∀ db db' : Database,
      (run w s (.showConfig r)).run db = (outcome, db) ∧ (run w' s' (.showConfig r)).run db' = (outcome, db') := by
  have h' : r.target = none ∨ w'.files.exists? s'.paths.setupsFile = true := by
    rwa [alike.paths, ← Files.exists?_congr alike.setupsFile]
  obtain ⟨result, answered⟩ : ∃ result, TestConfig.gather w.files (s.vault w) s.paths.setupsFile r = .answered result :=
    TestConfig.gather_answered h
  have answered' : TestConfig.gather w'.files (s'.vault w') s'.paths.setupsFile r = .answered result := by
    rw [← alike.gather_eq, answered]
  have shows := run_runShow_of_answered (needsDatabase_eq_false_iff.2 h) answered
  have shows' := run_runShow_of_answered (needsDatabase_eq_false_iff.2 h') answered'
  exact ⟨_, fun db db' => ⟨shows db, shows' db'⟩⟩

def labFiles : Files :=
  ⟨[(["w"], .directory),
    (["w", "setups.json"], .file (.bytes (Bytes.ofText "\x7b\"lab\": \x7b\"nodes\": 3\x7d\x7d")))], ["w"]⟩

def labCredentials : Environment :=
  ⟨[("S3QA_DB_USER", Bytes.ofText "qa"), ("S3QA_DB_PASSWORD", Bytes.ofText "pw")]⟩

def labKeeper : World := ⟨labFiles, labCredentials, ⟨0, 0⟩, []⟩

theorem text?_labCredentials {id : String} (user : id ≠ "DB_USER") (password : id ≠ "DB_PASSWORD") :
    labCredentials.text? ("S3QA_" ++ id) = none := by
  have lead {other : String} (apart : id ≠ other) : "S3QA_" ++ other ≠ "S3QA_" ++ id := fun same =>
    apart ((String.append_right_inj "S3QA_").1 same).symm
  have first : "S3QA_DB_USER" ≠ "S3QA_" ++ id := lead user
  have second : "S3QA_DB_PASSWORD" ≠ "S3QA_" ++ id := lead password
  simp [labCredentials, Environment.text?, Environment.bytes?, first, second]

/-- A visitor without credentials is shown a lab of the setups file just as its keeper is, whose database holds another
lab of that name. -/
theorem runShow_blind_to_database_labs :
    let r : TestConfig.Request := { target := some "lab" }
    let visitor : World := ⟨labFiles, ⟨[]⟩, ⟨7, 0⟩, []⟩
    let away : Settings := { database := { hostname := "gone:27017" } }
    let labs : Database :=
      ⟨⟨⟨[[("setupname", .string "lab"), ("nodes", .int 5)]], Collection.numbered⟩, []⟩, fun _ => true, []⟩
    let closed : Database := ⟨⟨⟨[], Collection.numbered⟩, [.find]⟩, fun _ => false, []⟩
    (run labKeeper {} (.showConfig r)).run labs = (.ok "\x7b\n  \"nodes\": 3\n\x7d\n", labs) ∧
      (run visitor away (.showConfig r)).run closed = (.ok "\x7b\n  \"nodes\": 3\n\x7d\n", closed) := by
  intro r visitor away labs closed
  have alike : AlikeBesideDatabase r labKeeper visitor {} away := by
    refine ⟨fun _ => nofun, rfl, rfl, fun id user _ => ?_, by decide⟩
    have apart : id ≠ "DB_USER" ∧ id ≠ "DB_PASSWORD" := by
      simpa [DatabaseSettings.credentials] using user
    have absent : labCredentials.text? ("S3QA_" ++ id) = none := text?_labCredentials apart.1 apart.2
    have none_at_all : Environment.text? ⟨[]⟩ ("S3QA_" ++ id) = none := by simp [Environment.text?, Environment.bytes?]
    simp only [Settings.vault, SecretProvider.environment, labKeeper, visitor, away, absent, none_at_all]
  obtain ⟨outcome, same⟩ := runShow_blind_to_database alike (.inr (by decide))
  have answered : TestConfig.gather labFiles (Settings.vault {} labKeeper) "setups.json" r =
      .answered (.ok [("nodes", .int 3)]) := by cbv
  have needless : needsDatabase labKeeper "setups.json" r = false := by decide
  have shown := run_runShow_of_answered (s := {}) needless answered labs
  obtain ⟨here, there⟩ := same labs closed
  obtain rfl : outcome = .ok "\x7b\n  \"nodes\": 3\n\x7d\n" := congrArg Prod.fst (here.symm.trans shown)
  exact ⟨here, there⟩

theorem snd_listing (query : Document) (db : Database) :
    (listing query db).2 = (Session.ask (.find query) db).2 := by
  unfold listing
  generalize Session.ask (.find query) db = answered
  obtain ⟨outcome, after⟩ := answered
  cases outcome with
  | error => rfl
  | ok answer => cases answer <;> rfl

theorem run_settle_asks (context : String) (query : Document) (next : Except Error Document → Except Error Document)
    (db : Database) : (settle context (.asks query next)).run db =
      (Failure.within context (next (listing query db).1), (listing query db).2) := rfl

theorem settle_keeps_calls (context : String) (inquiry : TestConfig.Inquiry) :
    (settle context inquiry).Keeps Database.calls := by
  intro db
  cases inquiry with
  | answered => rfl
  | asks query next =>
    rw [run_settle_asks, snd_listing]
    rfl

section Connect

variable {settings : DatabaseSettings} {vault : Vault} {user password : String}

theorem run_connect_of_resolves (context : String) (resolves : Connection.Resolves settings vault user password)
    (db : Database) : (Session.connect context settings vault).run db =
      (Session.dial context (Login.uri ⟨user, password, settings.hostname⟩)).run db := by
  rw [Session.connect, Connection.connect_of_resolves resolves, Session.run_bind, Session.run_lift, Failure.within,
    mapError_ok]

theorem calls_connect (context : String) (resolves : Connection.Resolves settings vault user password) (db : Database) :
    ((Session.connect context settings vault).run db).2.calls =
      db.calls ++ [Login.uri ⟨user, password, settings.hostname⟩] := by
  rw [run_connect_of_resolves context resolves]
  exact Session.calls_dial context _ db

theorem run_connect_of_admitted (context : String) (resolves : Connection.Resolves settings vault user password)
    {db : Database} (named : user.isEmpty = false) (admitted : db.admits ⟨user, password, settings.hostname⟩ = true) :
    (Session.connect context settings vault).run db =
      (.ok (), { db with calls := db.calls ++ [Login.uri ⟨user, password, settings.hostname⟩] }) := by
  have dialled : Connection.dial (Login.uri ⟨user, password, settings.hostname⟩) =
      .ok ⟨user, password, settings.hostname⟩ := by
    rw [Connection.dial, Login.ofUri?_uri]
    simp [named]
  rw [run_connect_of_resolves context resolves, Session.run_dial, dialled]
  simp only [admitted, if_true]

end Connect

/-- Otherwise the database is called with the credentials, if there are any, whatever the file says. -/
theorem runShow_calls_database {user password : String} (asked : r.target ≠ none)
    (missing : w.files.exists? s.paths.setupsFile = false)
    (resolves : Connection.Resolves s.database (s.vault w) user password) (db : Database) :
    ((run w s (.showConfig r)).run db).2.calls = db.calls ++ [Login.uri ⟨user, password, s.database.hostname⟩] := by
  have needed : needsDatabase w s.paths.setupsFile r = true := by
    simp [needsDatabase, missing, Option.isSome_iff_ne_none, asked]
  simp only [run, runShow, needed, if_true]
  rw [Session.part_bind fun _ => (settle_keeps_calls _ _).bind fun _ => .pure _ _]
  exact calls_connect _ resolves db

end Command

end BucketBench
