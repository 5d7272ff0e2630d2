import BucketBench.Decode.Record
import BucketBench.Store.Timings

set_option autoImplicit false

/-!
# Timing results read back

A timing result is read from an object that has all of its own fields; every other member is kept as an extra
field, in order.
-/

namespace BucketBench

structure PartialTiming where
  build : Option String := none
  test : Option String := none
  operation : Option String := none
  durationSecs : Option Double := none
  result : Option String := none
  recordedAt : Option Timestamp := none
  extra : Document := []

namespace PartialTiming

def decodeTime : Decoder Timestamp
  | .string s =>
    match Timestamp.ofText? s with
    | some t => .ok t
    | none => .error .notATime
  | v => .error (.wrongType v "an RFC 3339 formatted date and time string")

def assign (p : PartialTiming) (key : String) (v : Value) : Except Mismatch PartialTiming :=
  match key with
  | "build" => do return { p with build := some (← Decode.text v) }
  | "test" => do return { p with test := some (← Decode.text v) }
  | "operation" => do return { p with operation := some (← Decode.text v) }
  | "duration_secs" => do return { p with durationSecs := some (← Decode.double v) }
  | "result" => do return { p with result := some (← Decode.text v) }
  | "recorded_at" => do return { p with recordedAt := some (← decodeTime v) }
  | _ => .ok { p with extra := p.extra ++ [(key, v)] }

def assignAll : PartialTiming → Document → Except Mismatch PartialTiming
  | p, [] => .ok p
  | p, (key, v) :: rest => do assignAll (← p.assign key v) rest

def required {α : Type} (name : String) : Option α → Except Mismatch α
  | some a => .ok a
  | none => .error (.missingField name)

/-- The record when nothing is missing; the first missing field is reported. -/
def finish (p : PartialTiming) : Except Mismatch TimingRecord := do
  return {
    build := ← required "build" p.build
    test := ← required "test" p.test
    operation := ← required "operation" p.operation
    durationSecs := ← required "duration_secs" p.durationSecs
    result := ← required "result" p.result
    recordedAt := ← required "recorded_at" p.recordedAt
    extra := p.extra }

end PartialTiming

def TimingRecord.decode : Decoder TimingRecord
  | .object members => do (← PartialTiming.assignAll {} members).finish
  | v => .error (.wrongType v "struct TimingRecord")

end BucketBench
