import BucketBench.Cipher.Gcm
import BucketBench.Error
import BucketBench.Text.Base64
import BucketBench.Text.Hex

set_option autoImplicit false

/-!
# Encrypted tokens

A token is the mark `enc:` and the base64 text of a nonce followed by the sealed secret. Reading one fails
for the first reason in this order: no mark, no base64, too short, not authentic, not text.
-/

namespace BucketBench

structure MasterKey where
  bytes : Bytes
  size : bytes.length = 32

namespace MasterKey

def ofBytes (bytes : Bytes) : Except Error MasterKey :=
  if h : bytes.length = 32 then .ok ⟨bytes, h⟩ else .error (.secret .keySize)

def ofHex (text : String) : Except Error MasterKey :=
  match Hex.decode? (Text.trimChars text.toList) with
  | some bytes => ofBytes bytes
  | none => .error (.secret .keyNotHex)

end MasterKey

namespace Token

def mark : List Char := ['e', 'n', 'c', ':']

def isMarked (value : String) : Bool := (Text.afterLead? mark value.toList).isSome

def nonceSize : Nat := 12

def encrypt (key : MasterKey) (nonce : Bytes) (text : String) : String :=
  String.ofList (mark ++ Base64.encode (nonce ++ Gcm.sealText key.bytes nonce (Bytes.ofText text)))

def decrypt (key : MasterKey) (token : String) : Except Error String :=
  match Text.afterLead? mark token.toList with
  | none => .error (.secret .notAToken)
  | some encoded =>
    match Base64.decode? (Text.trimChars encoded) with
    | none => .error (.secret .notBase64)
    | some payload =>
      if payload.length ≤ nonceSize then .error (.secret .tooShort)
      else match Gcm.unseal? key.bytes (payload.take nonceSize) (payload.drop nonceSize) with
        | none => .error (.secret .notAuthentic)
        | some bytes =>
          match Bytes.text? bytes with
          | none => .error (.secret .notText)
          | some text => .ok text

end Token

end BucketBench
