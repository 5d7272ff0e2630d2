import BucketBench.Store.Setups
import BucketBench.TestConfig.Reading

set_option autoImplicit false

/-!
# The configuration of a test

A test is configured by a YAML file, by the details of a lab system, or by both; the details come last and
replace members of the file. Details are read from the setups file when there is one. Only otherwise, and only
when the file was fine, is the setups collection asked.
-/

namespace BucketBench.TestConfig

/-- What is asked for: a file, a lab system, or both, each narrowed to one key if wanted. -/
structure Request where
  file : Option String := none
  fileKey : Option String := none
  target : Option String := none
  targetKey : Option String := none
deriving DecidableEq

/-- A result, or a question to the setups collection and what follows from the answer. -/
inductive Inquiry where
  | answered (result : Except Error Document)
  | asks (query : Document) (next : Except Error Document → Except Error Document)

namespace Inquiry

def settle (setups : Document → Except Error Document) : Inquiry → Except Error Document
  | .answered result => result
  | .asks query next => next (setups query)

end Inquiry

def lookUp (key : String) : Value → Except Error Value
  | .object members =>
    match Document.get? key members with
    | some v => .ok v
    | none => .error (.config (.missingKey key))
  | _ => .error (.config (.noLookup key))

/-- Narrows a value to a key, if there is one. -/
def narrow (key : Option String) (v : Value) : Except Error Value :=
  match key with
  | some key => lookUp key v
  | none => .ok v

/-- The members of an object; null has none. -/
def members (subject : String) : Value → Except Error Document
  | .object members => .ok members
  | .null => .ok []
  | _ => .error (.config (.notAMapping subject))

/-- What the file contributes: nothing when no file is asked for. -/
def fromFile (fs : Files) (vault : Vault) (r : Request) : Except Error Document :=
  match r.file with
  | none => .ok []
  | some path => do members "yaml config" (← narrow r.fileKey (← readConfig fs vault path))

def combine (r : Request) (target : String) (base : Document) (details : Value) : Except Error Document := do
  return Document.overlay base (← members target (← narrow r.targetKey details))

def setupQuery (target : String) : Document := [(Setups.nameField, .string target)]

def gather (fs : Files) (vault : Vault) (setupsFile : String) (r : Request) : Inquiry :=
  match r.target with
  | none =>
    if r.file.isNone then .answered (.error (.invalidArgument "either fpath or target is required"))
    else .answered (fromFile fs vault r)
  | some target =>
    match fromFile fs vault r with
    | .error e => .answered (.error e)
    | .ok base =>
      if fs.exists? setupsFile then
        .answered do combine r target base (← lookUp target (← readJson fs setupsFile))
      else
        .asks (setupQuery target) fun listing => do
          combine r target base (← lookUp target (.object (← listing)))

end BucketBench.TestConfig
