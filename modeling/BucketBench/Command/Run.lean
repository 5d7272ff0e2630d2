import BucketBench.Command.Assignment
import BucketBench.Command.Output
import BucketBench.Command.World
import BucketBench.Settings.Load
import BucketBench.Store.Timings

set_option autoImplicit false

/-!
# Carrying out commands

Every command loads the settings first. Showing a configuration calls the database only for a lab system that
no setups file describes; an update is made up completely before the database is called.
-/

namespace BucketBench

/-- Secrets come from the environment, under names that the settings lead in. -/
def Settings.vault (settings : Settings) (w : World) : Vault :=
  ⟨.environment w.environment settings.secrets.envLead, settings.secrets.masterKeyId⟩

namespace Command

open Session

/-! ## Configurations -/

/-- The setups that a query finds, by name and without identifiers. -/
def listing (query : Document) (db : Database) : Except Error Document × Database :=
  match ask (.find query) db with
  | (.ok (.documents ds), db) => (.ok (Setups.byName true ds), db)
  | (.ok _, db) => (.ok [], db)
  | (.error e, db) => (.error e, db)

def settle (context : String) : TestConfig.Inquiry → Session Document
  | .answered r => lift (Failure.within context r)
  | .asks query next => fun db =>
    let (r, db) := listing query db
    (Failure.within context (next r), db)

def needsDatabase (w : World) (setupsFile : String) (r : TestConfig.Request) : Bool :=
  r.target.isSome && !w.files.exists? setupsFile

def runShow (w : World) (settings : Settings) (r : TestConfig.Request) : Session String := do
  let vault := settings.vault w
  if needsDatabase w settings.paths.setupsFile r then
    connect "Failed to connect to the setups database" settings.database vault
  let merged ← settle "Failed to read configuration"
    (TestConfig.gather w.files vault settings.paths.setupsFile r)
  return Output.line (Json.pretty (.object merged))

def runUpdate (w : World) (settings : Settings) (setup : String) (assignments removals : List String) :
    Session String := do
  let update ← lift (Failure.ofArguments (Assignment.update assignments removals))
  connect "Failed to connect to the setups database" settings.database (settings.vault w)
  let answer ← request "Failed to update setup details" (.updateMany (TestConfig.setupQuery setup) update)
  return Output.answer .text answer

/-! ## Secrets -/

def runEncrypt (w : World) (settings : Settings) (text : String) : Session String := do
  let token ← lift (Failure.within "Failed to encrypt value" ((settings.vault w).encrypt w.nonce text))
  return Output.line token

def runDecrypt (w : World) (settings : Settings) (token : String) : Session String := do
  let text ← lift (Failure.within "Failed to decrypt token" ((settings.vault w).decrypt token))
  return Output.line text

/-! ## Timings -/

/-- The record of a measurement, whose duration has to be finite and not below zero. -/
def recordOf (now : Timestamp) (m : Measurement) : Except String TimingRecord :=
  match m.duration with
  | none => .error "duration must be a non-negative number of seconds"
  | some duration =>
    if duration.isBelowZero then .error "duration must be a non-negative number of seconds"
    else do
      let fields ← Assignment.readAll m.fields
      return { build := m.build, test := m.test, operation := m.operation, durationSecs := duration,
               result := TimingRecord.resultText (!m.failed), recordedAt := now, extra := Assignment.fields fields }

def filterOf (text : String) : Except Failure Document :=
  match Json.read? text with
  | none => .error ⟨["Filter is not valid JSON"], .fault .json⟩
  | some (.object filter) => .ok filter
  | some _ => .error ⟨[], .arguments "filter must be a JSON object"⟩

/-- The call that a command asks for, and what it does in words. -/
def timingsCall (now : Timestamp) : TimingsCommand → Except Failure (String × StoreCall)
  | .record m => do
    let record ← Failure.ofArguments (recordOf now m)
    return ("Failed to record timing", .insertOne record.toDocument)
  | .find filter => do return ("Failed to find timings", .find (← filterOf filter))
  | .count filter => do return ("Failed to count timings", .count (← filterOf filter))
  | .distinct field filter => do return ("Failed to fetch distinct timings", .distinct field (← filterOf filter))

def runTimings (w : World) (settings : Settings) (format : OutputFormat) (c : TimingsCommand) : Session String := do
  connect "Failed to connect to the timings database" settings.database (settings.vault w)
  let (context, call) ← lift (timingsCall w.now c)
  return Output.answer format (← request context call)

/-! ## All commands -/

def versionText : String := "s3qa 0.1.0"

/-- Carries out a command; gives what it prints. -/
def run (w : World) (settings : Settings) : Command → Session String
  | .showConfig r => runShow w settings r
  | .updateConfig setup assignments removals => runUpdate w settings setup assignments removals
  | .encrypt text => runEncrypt w settings text
  | .decrypt token => runDecrypt w settings token
  | .timings format c => runTimings w settings format c
  | .version => lift (.ok (Output.line versionText))

end Command

/-- Loads the settings and carries out a command; printing the version needs none. -/
def Invocation.run (w : World) (i : Invocation) : Session String :=
  match i.command with
  | .version => Command.run w {} .version
  | command => do
    let settings ← Session.lift
      (Failure.within "Failed to load configuration" (Settings.load w.files w.environment i.settingsFile))
    command.run w settings

end BucketBench
