import BucketBench.Store.Collection
import BucketBench.World.Timestamp

set_option autoImplicit false

/-!
# Timing results

One measured operation, and the document it is stored as: its own fields in a fixed order and any extra ones
behind them. An extra field with the name of an own one replaces that value in place.
-/

namespace BucketBench

structure TimingRecord where
  build : String
  test : String
  operation : String
  durationSecs : Double
  result : String
  recordedAt : Timestamp
  extra : Document

namespace TimingRecord

/-- The words for a measurement that passed and for one that did not. -/
def resultText (passed : Bool) : String := if passed then "Pass" else "Fail"

def ownFields (r : TimingRecord) : Document :=
  [("build", .string r.build), ("test", .string r.test), ("operation", .string r.operation),
   ("duration_secs", .double r.durationSecs), ("result", .string r.result),
   ("recorded_at", .string r.recordedAt.text)]

def toDocument (r : TimingRecord) : Document := Document.overlay r.ownFields r.extra

def withField (r : TimingRecord) (name : String) (value : Value) : TimingRecord :=
  { r with extra := r.extra.insert name value }

end TimingRecord

end BucketBench
