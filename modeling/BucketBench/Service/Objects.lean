import BucketBench.Service.Buckets
import BucketBench.Service.Source

set_option autoImplicit false

/-!
# Objects

Putting files into objects, fetching and deleting them. Some calls make the file first when it is not there.
-/

namespace BucketBench.Account

def ensureFile (path : String) (mebibytes : Nat) : Dialogue Unit := do
  let c ← get
  if !c.files.exists? path then
    match c.files.createFile path mebibytes with
    | .ok files => set { c with files }
    | .error fault => throw (.file fault)

/-- The source at a path, for a call. -/
def sourceAt (call path : String) : Dialogue Source := do
  match (← get).files.get path with
  | .ok entry => return Source.ofEntry entry
  | .error _ => throw (.client call ReadFault.unreadable.message)

/-- A stretch of a source, for a call. -/
def readFor (call : String) (source : Source) (offset length : Nat) : Dialogue Contents :=
  match source.read offset length with
  | .ok c => return c
  | .error fault => throw (.client call fault.message)

/-- Puts all of a source into an object: the entity tag that it gets. -/
def putSource (a : Account) (call bucket key : String) (source : Source) (tagging : Option String)
    (metadata : Option (String × String)) : Dialogue (Option String) := do
  let body ← readFor call source 0 source.size
  a.send call (.putObject bucket key body tagging metadata)

def putObject (a : Account) (bucket key path : String) : Dialogue (Option String) := do
  a.putSource "put_object" bucket key (← sourceAt "put_object" path) none none

/-- Puts a file into an object, with tags as they stand in a query and with an entry of metadata. A file that is
not there is made first. -/
def putObjectTagged (a : Account) (bucket key path : String) (tagging : Option String)
    (metadata : Option (String × String)) : Dialogue (Option String) := do
  ensureFile path 1
  let call := "put_object_with_tagging"
  a.putSource call bucket key (← sourceAt call path) tagging metadata

def getObject (a : Account) (call bucket key : String) : Dialogue FetchedObject := a.send call (.getObject bucket key)

def deleteObject (a : Account) (bucket key : String) : Dialogue Deletion :=
  a.send "delete_object" (.deleteObject bucket key)

/-- Creates a bucket and puts a file into it, which is made first when it is not there. -/
def createBucketPutObject (a : Account) (bucket key path : String) (mebibytes : Nat) : Dialogue (Option String) := do
  ensureFile path mebibytes
  discard (a.createBucket bucket)
  a.putObject bucket key path

end BucketBench.Account
