import BucketBench.Text.Utf8

set_option autoImplicit false

/-!
# Base64 with padding

Three bytes are four digits; a last group of one or two bytes is filled up with `=`. Decoding accepts
exactly what encoding writes: padding is required and the unused bits of a last digit must be zero.
-/

namespace BucketBench.Base64

def digit (n : Nat) : Char :=
  if n < 26 then Char.ofNat (65 + n)
  else if n < 52 then Char.ofNat (71 + n)
  else if n < 62 then Char.ofNat (n - 4)
  else if n = 62 then '+'
  else '/'

def value? (c : Char) : Option Nat :=
  if 'A' ≤ c ∧ c ≤ 'Z' then some (c.toNat - 65)
  else if 'a' ≤ c ∧ c ≤ 'z' then some (c.toNat - 71)
  else if '0' ≤ c ∧ c ≤ '9' then some (c.toNat + 4)
  else if c = '+' then some 62
  else if c = '/' then some 63
  else none

def encode : Bytes → List Char
  | [] => []
  | [a] => [digit (a.toNat / 4), digit (a.toNat % 4 * 16), '=', '=']
  | [a, b] =>
    [digit (a.toNat / 4), digit (a.toNat % 4 * 16 + b.toNat / 16), digit (b.toNat % 16 * 4), '=']
  | a :: b :: c :: rest =>
    digit (a.toNat / 4) :: digit (a.toNat % 4 * 16 + b.toNat / 16)
      :: digit (b.toNat % 16 * 4 + c.toNat / 64) :: digit (c.toNat % 64) :: encode rest

/-- A group of four digits, the last one of the text or not. -/
def decodeGroup? (last : Bool) (w x y z : Char) : Option Bytes := do
  let a ← value? w
  let b ← value? x
  if last && y == '=' && z == '=' then
    if b % 16 = 0 then some [(4 * a + b / 16).toUInt8] else none
  else
    let c ← value? y
    if last && z == '=' then
      if c % 4 = 0 then some [(4 * a + b / 16).toUInt8, (b % 16 * 16 + c / 4).toUInt8] else none
    else
      let d ← value? z
      some [(4 * a + b / 16).toUInt8, (b % 16 * 16 + c / 4).toUInt8, (c % 4 * 64 + d).toUInt8]

def decode? : List Char → Option Bytes
  | [] => some []
  | w :: x :: y :: z :: rest => do
    let bytes ← decodeGroup? rest.isEmpty w x y z
    let more ← decode? rest
    some (bytes ++ more)
  | _ => none

theorem value?_digit : ∀ n : Fin 64, value? (digit n.val) = some n.val := by decide

theorem digit_ne_pad : ∀ n : Fin 64, digit n.val ≠ '=' := by decide

end BucketBench.Base64
