import BucketBench.Text.Utf8

set_option autoImplicit false

/-! # Environment variables -/

namespace BucketBench

/-- Variables by name; the last one of a name counts. -/
structure Environment where
  bindings : List (String × Bytes)
deriving Inhabited

namespace Environment

def isImpossible (name : String) : Bool :=
  name.isEmpty || name.toList.any fun c => c == '=' || c == '\x00'

def bytes? (env : Environment) (name : String) : Option Bytes :=
  if isImpossible name then none
  else (env.bindings.reverse.find? fun v => v.1 == name).map (·.2)

def text? (env : Environment) (name : String) : Option String := (env.bytes? name).bind Bytes.text?

end Environment

end BucketBench
