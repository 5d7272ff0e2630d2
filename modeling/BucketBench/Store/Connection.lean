import BucketBench.Secret.Vault
import BucketBench.Settings.Basic
import BucketBench.Text.Percent

set_option autoImplicit false

/-!
# Reaching the document database

The database is addressed by one text with the credentials in it, each of them percent-encoded so that the
marks around them stay unambiguous. The credentials are secrets; both are looked up before the database is
dialled.
-/

namespace BucketBench

structure Login where
  user : String
  password : String
  hostname : String
deriving DecidableEq

namespace Login

def scheme : String := "mongodb://"

def uri (l : Login) : String :=
  scheme ++ Percent.segment l.user ++ ":" ++ Percent.segment l.password ++ "@" ++ l.hostname

/-- Reads an address: the user ends at the first colon, the password at the first `@` behind it. -/
def ofUri? (uri : String) : Option Login := do
  let r ← Text.afterLead? scheme.toList uri.toList
  let (user, r) ← Text.splitFirst? ':' r
  let (password, hostname) ← Text.splitFirst? '@' r
  return ⟨← Percent.decode? (String.ofList user), ← Percent.decode? (String.ofList password), String.ofList hostname⟩

end Login

namespace Connection

def resolved (secrets : List (String × String)) (id : String) : Except Error String :=
  match secrets.find? fun s => s.1 == id with
  | some s => .ok s.2
  | none => .error (.secret (.unresolved id))

def connect {α : Type} (dial : String → Except Error α) (db : DatabaseSettings) (v : Vault) : Except Error α := do
  let secrets ← v.provider.secrets [db.userSecret, db.passwordSecret]
  let user ← resolved secrets db.userSecret
  let password ← resolved secrets db.passwordSecret
  dial (Login.uri ⟨user, password, db.hostname⟩)

/-- The database client refuses an address that it cannot read or that names no user. -/
def dial (uri : String) : Except Error Login :=
  match Login.ofUri? uri with
  | none => .error (.store .refused)
  | some l => if l.user.isEmpty then .error (.store .noUsername) else .ok l

end Connection

end BucketBench
