import BucketBench.Text.Utf8

set_option autoImplicit false

/-! # Bytes written as hexadecimal digits -/

namespace BucketBench.Hex

def digit? (c : Char) : Option UInt8 :=
  if '0' ≤ c ∧ c ≤ '9' then some (c.toNat - 48).toUInt8
  else if 'a' ≤ c ∧ c ≤ 'f' then some (c.toNat - 87).toUInt8
  else if 'A' ≤ c ∧ c ≤ 'F' then some (c.toNat - 55).toUInt8
  else none

/-- Two digits a byte; an odd digit is refused. -/
def decode? : List Char → Option Bytes
  | [] => some []
  | [_] => none
  | a :: b :: rest => do
    let high ← digit? a
    let low ← digit? b
    let bytes ← decode? rest
    some ((16 * high + low) :: bytes)

def upperDigit (n : UInt8) : Char := if n < 10 then Char.ofNat (48 + n.toNat) else Char.ofNat (55 + n.toNat)

end BucketBench.Hex
