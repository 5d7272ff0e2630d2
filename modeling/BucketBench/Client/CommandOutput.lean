import BucketBench.Text.Blank

set_option autoImplicit false

/-! # What a finished command leaves behind -/

namespace BucketBench

structure CommandOutput where
  success : Bool
  /-- The exit code; a command that a signal ended has none. -/
  code : Option Int
  stdout : String
  stderr : String
deriving DecidableEq

namespace CommandOutput

/-- The text to look at: of a failed command what it complained about, if it did, otherwise its output. -/
def text (o : CommandOutput) : String :=
  if o.success || (Text.trim o.stderr).isEmpty then o.stdout else o.stderr

def contains (o : CommandOutput) (needle : String) : Bool :=
  Text.contains needle o.stdout || Text.contains needle o.stderr

end CommandOutput

end BucketBench
