import BucketBench.Text.Hex

set_option autoImplicit false

/-!
# Percent encoding

The UTF-8 bytes of a text, those of the kept characters as they are and every other one as `%` and two
upper-case digits. A character beyond ASCII is never kept.
-/

namespace BucketBench.Percent

def escapeByte (b : UInt8) : List Char := ['%', Hex.upperDigit (b / 16), Hex.upperDigit (b % 16)]

def encodeByte (keep : Char → Bool) (b : UInt8) : List Char :=
  let c := Char.ofNat b.toNat
  if b < 0x80 && keep c then [c] else escapeByte b

def encode (keep : Char → Bool) (s : String) : String :=
  String.ofList ((Bytes.ofText s).flatMap (encodeByte keep))

/-- Letters, digits, and the marks `-`, `.`, `_` and `~` stand for themselves in every part of a URL. -/
def isUnreserved (c : Char) : Bool := c.isAlphanum || c == '-' || c == '.' || c == '_' || c == '~'

def segment (s : String) : String := encode isUnreserved s

def path (s : String) : String := encode (fun c => isUnreserved c || c == '/') s

/-- The bytes that an encoded text stands for: the bytes of its escapes, and its other characters as they are. -/
def decodeBytes? : List Char → Option Bytes
  | [] => some []
  | '%' :: a :: b :: rest => do
    let high ← Hex.digit? a
    let low ← Hex.digit? b
    return (16 * high + low) :: (← decodeBytes? rest)
  | c :: rest => if c = '%' then none else do return Bytes.ofText c.toString ++ (← decodeBytes? rest)

def decode? (s : String) : Option String := (decodeBytes? s.toList).bind Bytes.text?

end BucketBench.Percent
