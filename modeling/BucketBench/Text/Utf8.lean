set_option autoImplicit false

/-!
# Bytes and text

Text travels as UTF-8. Strict decoding refuses anything else; lenient decoding puts U+FFFD in place of
every longest run of bytes that begins a character and does not finish it.
-/

namespace BucketBench

abbrev Bytes := List UInt8

namespace Bytes

def ofText (s : String) : Bytes := s.toUTF8.toList

def text? (b : Bytes) : Option String := String.fromUTF8? (ByteArray.mk b.toArray)

/-- A character of which `left` more bytes are due, the next one between `low` and `high`. -/
structure Pending where
  left : Nat
  bits : Nat
  low : UInt8
  high : UInt8

def replacement : Char := '\uFFFD'

/-- A byte where a new character may begin: what it writes at once, or the character it opens. -/
def enter (b : UInt8) : List Char × Option Pending :=
  if b < 0x80 then ([Char.ofNat b.toNat], none)
  else if b < 0xC2 then ([replacement], none)
  else if b < 0xE0 then ([], some ⟨1, b.toNat - 0xC0, 0x80, 0xBF⟩)
  else if b < 0xF0 then
    ([], some ⟨2, b.toNat - 0xE0, if b = 0xE0 then 0xA0 else 0x80, if b = 0xED then 0x9F else 0xBF⟩)
  else if b < 0xF5 then
    ([], some ⟨3, b.toNat - 0xF0, if b = 0xF0 then 0x90 else 0x80, if b = 0xF4 then 0x8F else 0xBF⟩)
  else ([replacement], none)

/-- One more byte, inside a character or outside. -/
def advance (pending : Option Pending) (b : UInt8) : List Char × Option Pending :=
  match pending with
  | none => enter b
  | some p =>
    if p.low ≤ b ∧ b ≤ p.high then
      let bits := 64 * p.bits + (b.toNat - 0x80)
      if p.left ≤ 1 then ([Char.ofNat bits], none) else ([], some ⟨p.left - 1, bits, 0x80, 0xBF⟩)
    else
      let (cs, next) := enter b
      (replacement :: cs, next)

def lenientFrom (pending : Option Pending) : Bytes → List Char
  | [] => if pending.isSome then [replacement] else []
  | b :: rest =>
    let (cs, next) := advance pending b
    cs ++ lenientFrom next rest

/-- The text of the bytes, with U+FFFD for what is no text. -/
def lenientText (b : Bytes) : String := String.ofList (lenientFrom none b)

end Bytes

end BucketBench
