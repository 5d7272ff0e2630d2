import BucketBench.Json.Value
import BucketBench.Number.Digits
import BucketBench.Text.Blank

set_option autoImplicit false

/-!
# Pointers into a value

A pointer is a text of keys, each behind a slash. Inside a key `~1` stands for a slash and `~0` for a tilde. A key
leads into the member of an object or, when it is a decimal number without leading zeros, into the element
of an array.
-/

namespace BucketBench.Json.Pointer

def unescape : List Char → List Char
  | '~' :: '1' :: rest => '/' :: unescape rest
  | '~' :: '0' :: rest => '~' :: unescape rest
  | c :: rest => c :: unescape rest
  | [] => []

def keys? (pointer : String) : Option (List String) :=
  match Text.pieces '/' pointer.toList with
  | [[]] => some []
  | [] :: rest => some (rest.map fun k => String.ofList (unescape k))
  | _ => none

def index? (key : String) : Option Nat :=
  let ds := key.toList
  if ds.isEmpty || ds.any (fun c => (Digits.digit? c).isNone) || (ds.length > 1 && ds.head? == some '0') then none
  else some (Digits.decimalValue ds)

def follow : List String → Value → Option Value
  | [], v => some v
  | key :: rest, .object members => (Document.get? key members).bind (follow rest)
  | key :: rest, .array items => (index? key).bind fun i => items[i]?.bind (follow rest)
  | _ :: _, _ => none

def get? (pointer : String) (v : Value) : Option Value := (keys? pointer).bind (follow · v)

end BucketBench.Json.Pointer
