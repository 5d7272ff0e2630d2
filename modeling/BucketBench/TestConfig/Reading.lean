import BucketBench.Json.Reader
import BucketBench.Secret.Vault
import BucketBench.World.Files
import BucketBench.Yaml.Value

set_option autoImplicit false

/-! # Values in files -/

namespace BucketBench.TestConfig

/-- The value of a YAML file, which has to be text. -/
def readYaml (fs : Files) (path : String) : Except Error Value := do
  match Yaml.read? (← (fs.readText path).mapError .file) with
  | some v => return v
  | none => throw .yaml

def readJson (fs : Files) (path : String) : Except Error Value := do
  let contents ← (fs.read path).mapError .file
  match (Bytes.text? contents.toBytes).bind Json.read? with
  | some v => return v
  | none => throw .json

def readConfig (fs : Files) (vault : Vault) (path : String) : Except Error Value := do
  let v ← readYaml fs path
  let (r, v) := vault.decryptAll v
  let _ ← r
  return v

end BucketBench.TestConfig
