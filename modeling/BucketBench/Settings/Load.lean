import BucketBench.Settings.Basic
import BucketBench.Toml.Statement
import BucketBench.World.Environment
import BucketBench.World.Files

set_option autoImplicit false

/-!
# Where settings come from

Settings are read from a file, when one is named, and otherwise are the defaults. Three variables of the
environment override the endpoint and the credentials of the service, whatever the file says.
-/

namespace BucketBench.Settings

def parse (text : String) : Except Error Settings :=
  match Toml.read? text with
  | none => .error (.config .settings)
  | some v =>
    match decode .toml v with
    | .ok settings => .ok settings
    | .error _ => .error (.config .settings)

def ofFile (fs : Files) (path : String) : Except Error Settings := do
  match fs.readText path with
  | .ok text => parse text
  | .error fault => throw (.file fault)

def endpointVariable : String := "S3QA_ENDPOINT"

def accessKeyVariable : String := "S3QA_ACCESS_KEY"

def secretKeyVariable : String := "S3QA_SECRET_KEY"

def override (env : Environment) (s : Settings) : Settings :=
  { s with s3 := { s.s3 with
      endpoint := (env.text? endpointVariable).getD s.s3.endpoint
      accessKey := (env.text? accessKeyVariable).getD s.s3.accessKey
      secretKey := (env.text? secretKeyVariable).getD s.s3.secretKey } }

/-- The settings of a file, or the defaults, under the environment. -/
def load (fs : Files) (env : Environment) (path : Option String) : Except Error Settings := do
  let settings ← match path with
    | some path => ofFile fs path
    | none => .ok {}
  return settings.override env

end BucketBench.Settings
