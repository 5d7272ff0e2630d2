import BucketBench.Error
import BucketBench.Json.Value
import BucketBench.Text.Quoted

set_option autoImplicit false

/-!
# Why a value does not fit

Typed data are read from freeform values. A value that does not fit gives a reason; its wording shows the
value where it is a scalar and its kind otherwise.
-/

namespace BucketBench

inductive Mismatch where
  | wrongType (actual : Value) (expected : String)
  | wrongValue (actual : Value) (expected : String)
  | tooLong (count : Nat)
  | missingField (name : String)
  | unknownVariant (name : String) (expected : String)
  | notATime

namespace Mismatch

def describe : Value → String
  | .null => "null"
  | .bool b => s!"boolean `{b}`"
  | .int n => s!"integer `{n}`"
  | .double x => s!"floating point `{x.text}`"
  | .string s => s!"string {Text.quoted s}"
  | .array _ => "sequence"
  | .object _ => "map"

def message : Mismatch → String
  | .wrongType actual expected => s!"invalid type: {describe actual}, expected {expected}"
  | .wrongValue actual expected => s!"invalid value: {describe actual}, expected {expected}"
  | .tooLong count => s!"invalid length {count}, expected fewer elements in array"
  | .missingField name => s!"missing field `{name}`"
  | .unknownVariant name expected => s!"unknown variant `{name}`, expected {expected}"
  | .notATime => ""

def error (m : Mismatch) : Error :=
  match m with
  | .notATime => .config .otherMismatch
  | m => .config (.mismatch m.message)

end Mismatch

abbrev Decoder (α : Type) := Value → Except Mismatch α

end BucketBench
