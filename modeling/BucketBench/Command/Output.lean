import BucketBench.Json.Printer
import BucketBench.CommandLine.Invocation
import BucketBench.Store.Call

set_option autoImplicit false

/-! # What commands print -/

namespace BucketBench.Output

def line (s : String) : String := s ++ "\n"

/-- A value for a reader: a text as it is, anything else as JSON. -/
def plain : Value → String
  | .string s => s
  | v => Json.compact v

/-- One answer of the timings, in either format. -/
def answer : OutputFormat → StoreAnswer → String
  | .json, .inserted id => line (Json.compact (.object [("id", id)]))
  | .text, .inserted id => line (plain id)
  | .json, .documents ds => line (Json.pretty (.array (ds.map .object)))
  | .text, .documents ds =>
    String.join (ds.map fun d => line (Json.compact (.object d))) ++ line (toString ds.length ++ " document(s)")
  | .json, .number n => line (Json.compact (.object [("count", .int n)]))
  | .text, .number n => line (toString n)
  | .json, .values vs => line (Json.pretty (.array vs))
  | .text, .values vs => String.join (vs.map fun v => line (plain v))
  | _, .updated u => line s!"matched: {u.matched}, modified: {u.modified}"

end BucketBench.Output
