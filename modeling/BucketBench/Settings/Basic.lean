import BucketBench.Decode.Record

set_option autoImplicit false

/-!
# Settings

The settings of the suite in five sections. Every leaf has a default of its own, so a section may be absent,
empty or partly filled. A section is read in the dialect it comes from: only in JSON does an array of
fields have to end where the fields end, and only there is null the value of a log format spelled as an object.
-/

namespace BucketBench

structure S3Settings where
  endpoint : String := "http://127.0.0.1:9000"
  region : String := "us-east-1"
  accessKey : String := ""
  secretKey : String := ""
  sessionToken : Option String := none
  forcePathStyle : Bool := true
  maxAttempts : Nat := 1
deriving DecidableEq

structure DatabaseSettings where
  hostname : String := "localhost:27017"
  setupsDatabase : String := "cft_test_results"
  setupsCollection : String := "r2_systems"
  timingsDatabase : String := "cft_test_results"
  timingsCollection : String := "timings"
  userSecret : String := "DB_USER"
  passwordSecret : String := "DB_PASSWORD"
deriving DecidableEq

structure PathSettings where
  setupsFile : String := "setups.json"
  testDataDir : String := "testdata"
  configDir : String := "config"
deriving DecidableEq

structure SecretSettings where
  envLead : String := "S3QA_"
  masterKeyId : String := "MASTER_KEY"
deriving DecidableEq

inductive LogFormat where
  | json
  | pretty
deriving DecidableEq

structure LogSettings where
  level : String := "info"
  format : LogFormat := .pretty
deriving DecidableEq

structure Settings where
  s3 : S3Settings := {}
  database : DatabaseSettings := {}
  paths : PathSettings := {}
  secrets : SecretSettings := {}
  logging : LogSettings := {}
deriving DecidableEq

inductive Dialect where
  | json
  | toml
deriving DecidableEq

def Dialect.isStrict (n : Dialect) : Bool := n == .json

namespace LogFormat

def name : LogFormat → String
  | .json => "json"
  | .pretty => "pretty"

def ofName (name : String) : Except Mismatch LogFormat :=
  if name = "json" then .ok .json
  else if name = "pretty" then .ok .pretty
  else .error (.unknownVariant name "`json` or `pretty`")

def isUnit (n : Dialect) (v : Value) : Bool :=
  match n, v with
  | .json, .null => true
  | .toml, .array [] => true
  | .toml, .object [] => true
  | _, _ => false

/-- A format is its name, or an object with the name as its only key. -/
def decode (n : Dialect) : Decoder LogFormat
  | .string name => ofName name
  | .object [(name, v)] => do
    let format ← ofName name
    if isUnit n v then return format else throw (.wrongType v "unit")
  | .object members => .error (.wrongValue (.object members) "map with a single key")
  | v => .error (.wrongType v "string or map")

end LogFormat

namespace S3Settings

def decoder : RecordDecoder S3Settings where
  name := "struct S3Config"
  initial := {}
  fields := [
    ("endpoint", fun v s => do return { s with endpoint := ← Decode.text v }),
    ("region", fun v s => do return { s with region := ← Decode.text v }),
    ("access_key", fun v s => do return { s with accessKey := ← Decode.text v }),
    ("secret_key", fun v s => do return { s with secretKey := ← Decode.text v }),
    ("session_token", fun v s => do return { s with sessionToken := ← Decode.optional Decode.text v }),
    ("force_path_style", fun v s => do return { s with forcePathStyle := ← Decode.bool v }),
    ("max_attempts", fun v s => do return { s with maxAttempts := ← Decode.u32 v })]

def toDocument (s : S3Settings) : Document :=
  [("endpoint", .string s.endpoint), ("region", .string s.region), ("access_key", .string s.accessKey),
   ("secret_key", .string s.secretKey), ("session_token", (s.sessionToken.map .string).getD .null),
   ("force_path_style", .bool s.forcePathStyle), ("max_attempts", .int s.maxAttempts)]

end S3Settings

namespace DatabaseSettings

def decoder : RecordDecoder DatabaseSettings where
  name := "struct DatabaseConfig"
  initial := {}
  fields := [
    ("hostname", fun v s => do return { s with hostname := ← Decode.text v }),
    ("setups_database", fun v s => do return { s with setupsDatabase := ← Decode.text v }),
    ("setups_collection", fun v s => do return { s with setupsCollection := ← Decode.text v }),
    ("timings_database", fun v s => do return { s with timingsDatabase := ← Decode.text v }),
    ("timings_collection", fun v s => do return { s with timingsCollection := ← Decode.text v }),
    ("user_secret", fun v s => do return { s with userSecret := ← Decode.text v }),
    ("password_secret", fun v s => do return { s with passwordSecret := ← Decode.text v })]

def toDocument (s : DatabaseSettings) : Document :=
  [("hostname", .string s.hostname), ("setups_database", .string s.setupsDatabase),
   ("setups_collection", .string s.setupsCollection), ("timings_database", .string s.timingsDatabase),
   ("timings_collection", .string s.timingsCollection), ("user_secret", .string s.userSecret),
   ("password_secret", .string s.passwordSecret)]

end DatabaseSettings

namespace PathSettings

def decoder : RecordDecoder PathSettings where
  name := "struct PathsConfig"
  initial := {}
  fields := [
    ("setups_file", fun v s => do return { s with setupsFile := ← Decode.path v }),
    ("test_data_dir", fun v s => do return { s with testDataDir := ← Decode.path v }),
    ("config_dir", fun v s => do return { s with configDir := ← Decode.path v })]

def toDocument (s : PathSettings) : Document :=
  [("setups_file", .string s.setupsFile), ("test_data_dir", .string s.testDataDir),
   ("config_dir", .string s.configDir)]

end PathSettings

namespace SecretSettings

def decoder : RecordDecoder SecretSettings where
  name := "struct SecretsConfig"
  initial := {}
  fields := [
    ("env_prefix", fun v s => do return { s with envLead := ← Decode.text v }),
    ("master_key_id", fun v s => do return { s with masterKeyId := ← Decode.text v })]

def toDocument (s : SecretSettings) : Document :=
  [("env_prefix", .string s.envLead), ("master_key_id", .string s.masterKeyId)]

end SecretSettings

namespace LogSettings

def decoder (n : Dialect) : RecordDecoder LogSettings where
  name := "struct LoggingConfig"
  initial := {}
  fields := [
    ("level", fun v s => do return { s with level := ← Decode.text v }),
    ("format", fun v s => do return { s with format := ← LogFormat.decode n v })]

def toDocument (s : LogSettings) : Document :=
  [("level", .string s.level), ("format", .string s.format.name)]

end LogSettings

namespace Settings

def decoder (n : Dialect) : RecordDecoder Settings where
  name := "struct Config"
  initial := {}
  fields := [
    ("s3", fun v s => do return { s with s3 := ← S3Settings.decoder.decode n.isStrict v }),
    ("database", fun v s => do
      return { s with database := ← DatabaseSettings.decoder.decode n.isStrict v }),
    ("paths", fun v s => do return { s with paths := ← PathSettings.decoder.decode n.isStrict v }),
    ("secrets", fun v s => do return { s with secrets := ← SecretSettings.decoder.decode n.isStrict v }),
    ("logging", fun v s => do
      return { s with logging := ← (LogSettings.decoder n).decode n.isStrict v })]

def decode (n : Dialect) : Decoder Settings := (decoder n).decode n.isStrict

/-- The settings with all their leaves, as they are written. -/
def toDocument (s : Settings) : Document :=
  [("s3", .object s.s3.toDocument), ("database", .object s.database.toDocument),
   ("paths", .object s.paths.toDocument), ("secrets", .object s.secrets.toDocument),
   ("logging", .object s.logging.toDocument)]

end Settings

end BucketBench
