import BucketBench.Command.Failure
import BucketBench.Store.Call
import BucketBench.Store.Connection
import BucketBench.World.Environment
import BucketBench.World.Files

set_option autoImplicit false

/-!
# What commands work on

Commands read a world that they never change, and talk to a database, which they may. The database keeps a log
of the addresses under which it was called, so that a command which never calls it leaves it exactly as it was.
-/

namespace BucketBench

structure World where
  files : Files
  environment : Environment
  now : Timestamp
  /-- Fresh random bytes. -/
  nonce : Bytes

/-- A database, whom it lets in, and under which addresses it was called. -/
structure Database where
  server : Server
  admits : Login → Bool
  calls : List String := []

/-- Steps that may change the database, and may fail. -/
abbrev Session (α : Type) := ExceptT Failure (StateM Database) α

namespace Session

/-- Runs a session; the database keeps what was done before a failure. -/
def run {α : Type} (s : Session α) (db : Database) : Except Failure α × Database := (ExceptT.run s).run db

def lift {α : Type} (r : Except Failure α) : Session α := fun db => (r, db)

def dial (context uri : String) : Session Unit := fun db =>
  let db := { db with calls := db.calls ++ [uri] }
  match Connection.dial uri with
  | .error e => (.error ⟨[context], .fault e⟩, db)
  | .ok login => if db.admits login then (.ok (), db) else (.error ⟨[context], .fault Server.refused⟩, db)

def connect (context : String) (settings : DatabaseSettings) (vault : Vault) : Session Unit := do
  dial context (← lift (Failure.within context (Connection.connect .ok settings vault)))

def ask (call : StoreCall) (db : Database) : Except Error StoreAnswer × Database :=
  let (r, server) := db.server.perform call
  (r, { db with server })

def request (context : String) (call : StoreCall) : Session StoreAnswer := fun db =>
  let (r, db) := ask call db
  (Failure.within context r, db)

end Session

end BucketBench
