import BucketBench.Json.Pointer
import BucketBench.Json.Printer
import BucketBench.Json.Reader
import BucketBench.World.Environment
import BucketBench.World.Files

set_option autoImplicit false

/-!
# The alias file of the MinIO client

The client keeps services under alias names, each with its two keys, among fields of its own that are none of
the suite's business. `setKeys` writes the two keys of an alias and leaves everything else in place.
-/

namespace BucketBench

/-- The alias file as it was read, and where it lies. -/
structure AliasFile where
  path : String
  data : Document

namespace AliasFile

def defaultAlias : String := "s3"

def join (folder name : String) : String :=
  if folder.isEmpty || folder.toList.getLast? == some '/' then folder ++ name else folder ++ "/" ++ name

/-- Where the client keeps its file, if there is a home directory. -/
def defaultPath (env : Environment) : Option String :=
  (env.bytes? "HOME").map fun home => join (join home.lenientText ".mc") "config.json"

def load (fs : Files) (path : String) : Except Error AliasFile := do
  let text ← (fs.readText path).mapError .file
  match Json.read? text with
  | none => throw .json
  | some (.object data) => return ⟨path, data⟩
  | some _ => throw (.config (.other s!"{path} is not a JSON object"))

/-- A text under an alias. The name of the alias is part of the pointer as it stands. -/
def textAt (f : AliasFile) (name key : String) : Option String :=
  match Json.Pointer.get? ("/aliases/" ++ name ++ "/" ++ key) (.object f.data) with
  | some (.string s) => some s
  | _ => none

def accessKey (f : AliasFile) (name : String) : Option String := f.textAt name "accessKey"

def secretKey (f : AliasFile) (name : String) : Option String := f.textAt name "secretKey"

def keysMatch (f : AliasFile) (name access secret : String) : Bool :=
  f.accessKey name == some access && f.secretKey name == some secret

/-- The object under a key; any other value counts as an empty one. -/
def objectAt (key : String) (d : Document) : Document :=
  match d.get? key with
  | some (.object members) => members
  | _ => []

def setKeys (f : AliasFile) (name access secret : String) : AliasFile :=
  let aliases := objectAt "aliases" f.data
  let entry := ((objectAt name aliases).insert "accessKey" (.string access)).insert "secretKey" (.string secret)
  { f with data := f.data.insert "aliases" (.object (aliases.insert name (.object entry))) }

def save (f : AliasFile) (fs : Files) : Except Error Files :=
  (fs.write f.path (.bytes (Bytes.ofText (Json.pretty (.object f.data))))).mapError .file

/-- Makes sure that an alias has the given keys; tells whether the file was written. -/
def ensureKeys (fs : Files) (path name access secret : String) : Except Error (Bool × Files) := do
  let f ← load fs path
  if f.keysMatch name access secret then return (false, fs)
  return (true, ← (f.setKeys name access secret).save fs)

end AliasFile

end BucketBench
