import BucketBench.Json.Value
import BucketBench.Secret.Provider
import BucketBench.Secret.Token
import BucketBench.Text.Quoted

set_option autoImplicit false

/-!
# Decrypting marked values

A vault knows where secrets come from and which of them is the master key. `Vault.decryptAll` replaces every
marked string of a value in the order of the text and stops at the first one that does not decrypt; object
keys are never touched, and without a marked string the key is not even looked up.
-/

namespace BucketBench

/-- A provider of secrets and the identifier of the master key among them. -/
structure Vault where
  provider : SecretProvider
  masterKeyId : String

namespace Value

mutual

/-- The marked strings of a value, in the order of its text. -/
def marked : Value → List String
  | .string s => if Token.isMarked s then [s] else []
  | .array items => markedItems items
  | .object members => markedMembers members
  | _ => []

def markedItems : List Value → List String
  | [] => []
  | v :: rest => marked v ++ markedItems rest

def markedMembers : Document → List String
  | [] => []
  | (_, v) :: rest => marked v ++ markedMembers rest

end

mutual

/-- Replaces marked strings until one does not decrypt: the number replaced or the error, and the value that
is left behind. -/
def decryptWith (key : MasterKey) : Value → Except Error Nat × Value
  | .string s =>
    if Token.isMarked s then
      match Token.decrypt key s with
      | .ok text => (.ok 1, .string text)
      | .error e => (.error e, .string s)
    else (.ok 0, .string s)
  | .array items => let (r, items) := decryptItems key items; (r, .array items)
  | .object members => let (r, members) := decryptMembers key members; (r, .object members)
  | v => (.ok 0, v)

def decryptItems (key : MasterKey) : List Value → Except Error Nat × List Value
  | [] => (.ok 0, [])
  | v :: rest =>
    match decryptWith key v with
    | (.error e, v) => (.error e, v :: rest)
    | (.ok n, v) => let (r, rest) := decryptItems key rest; (r.map (n + ·), v :: rest)

def decryptMembers (key : MasterKey) : Document → Except Error Nat × Document
  | [] => (.ok 0, [])
  | (k, v) :: rest =>
    match decryptWith key v with
    | (.error e, v) => (.error e, (k, v) :: rest)
    | (.ok n, v) => let (r, rest) := decryptMembers key rest; (r.map (n + ·), (k, v) :: rest)

end

end Value

namespace Vault

/-- The master key, looked up anew at every use. -/
def masterKey (vault : Vault) : Except Error MasterKey := do
  MasterKey.ofHex (← vault.provider.secret vault.masterKeyId)

def encrypt (vault : Vault) (nonce : Bytes) (text : String) : Except Error String := do
  return Token.encrypt (← vault.masterKey) nonce text

def decrypt (vault : Vault) (token : String) : Except Error String := do
  Token.decrypt (← vault.masterKey) token

/-- A marked value decrypted, any other one as it is. -/
def reveal (vault : Vault) (value : String) : Except Error String :=
  if Token.isMarked value then vault.decrypt value else .ok value

/-- Decrypts every marked string: the number of them or the error, and the value afterwards. -/
def decryptAll (vault : Vault) (value : Value) : Except Error Nat × Value :=
  if value.marked.isEmpty then (.ok 0, value)
  else match vault.masterKey with
    | .error e => (.error e, value)
    | .ok key => value.decryptWith key

/-- How a vault shows itself in messages; secrets do not appear. -/
def description (vault : Vault) : String :=
  "PasswordManager \x7b master_key_id: " ++ Text.quoted vault.masterKeyId ++ " \x7d"

end Vault

end BucketBench
