import BucketBench.Decode.Mismatch
import BucketBench.Number.IntRange

set_option autoImplicit false

/-!
# Reading scalars, lists and records

A record is read from an object, its members in the order of the text, or from an array that lists its fields
in order. Fields that are not given keep the record's initial value, and unknown members are passed over.
-/

namespace BucketBench.Decode

def text : Decoder String
  | .string s => .ok s
  | v => .error (.wrongType v "a string")

def path : Decoder String
  | .string s => .ok s
  | v => .error (.wrongType v "path string")

def bool : Decoder Bool
  | .bool b => .ok b
  | v => .error (.wrongType v "a boolean")

def int (range : IntRange) (expected : String) : Decoder Int
  | .int n => if n ∈ range then .ok n else .error (.wrongValue (.int n) expected)
  | v => .error (.wrongType v expected)

def u32 : Decoder Nat := fun v => (int .word32 "u32" v).map Int.toNat

def i64 : Decoder Int := int .int64 "i64"

def double : Decoder Double
  | .double x => .ok x
  | .int n =>
    match Double.ofInt? n with
    | some x => .ok x
    | none => .error (.wrongType (.int n) "f64")
  | v => .error (.wrongType v "f64")

def optional {α : Type} (decode : Decoder α) : Decoder (Option α)
  | .null => .ok none
  | v => (decode v).map some

def document : Decoder Document
  | .object members => .ok members
  | v => .error (.wrongType v "a map")

def list {α : Type} (decode : Decoder α) : Decoder (List α)
  | .array items => items.mapM decode
  | v => .error (.wrongType v "a sequence")

def textMap : Decoder (List (String × String))
  | .object members => members.mapM fun (k, v) => (text v).map (k, ·)
  | v => .error (.wrongType v "a map")

end BucketBench.Decode

namespace BucketBench

/-- How a record is read: what it is called in messages, the value of its fields when none is given, and how
each field is read into it. -/
structure RecordDecoder (α : Type) where
  name : String
  initial : α
  fields : List (String × (Value → α → Except Mismatch α))

namespace RecordDecoder

variable {α : Type}

/-- Reads one member into a record; an unknown one changes nothing. -/
def assign (r : RecordDecoder α) (record : α) (key : String) (value : Value) : Except Mismatch α :=
  match r.fields.find? fun f => f.1 == key with
  | some f => f.2 value record
  | none => .ok record

/-- Reads the members of an object into a record, in the order of the text. -/
def assignAll (r : RecordDecoder α) : α → Document → Except Mismatch α
  | record, [] => .ok record
  | record, (key, value) :: rest => do r.assignAll (← r.assign record key value) rest

/-- Reads the elements of an array into the fields in their order; what is left over is given back. -/
def assignInOrder : List (String × (Value → α → Except Mismatch α)) → α → List Value →
    Except Mismatch (α × List Value)
  | [], record, rest => .ok (record, rest)
  | _, record, [] => .ok (record, [])
  | f :: fields, record, value :: rest => do assignInOrder fields (← f.2 value record) rest

/-- Reads a record. An array with more elements than fields is refused when `strict`. -/
def decode (r : RecordDecoder α) (strict : Bool) : Decoder α
  | .object members => r.assignAll r.initial members
  | .array items => do
    let (record, rest) ← assignInOrder r.fields r.initial items
    if strict && !rest.isEmpty then throw (.tooLong items.length) else return record
  | v => .error (.wrongType v r.name)

end RecordDecoder

end BucketBench
