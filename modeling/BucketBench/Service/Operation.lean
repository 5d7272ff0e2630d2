import BucketBench.Client.Tags
import BucketBench.World.Files

set_option autoImplicit false

/-!
# Operations of an object store

What a client may ask of the service, and for every operation the type of its answer. An operation is data:
asking for it twice is the same value twice, and a record of operations is a full account of what was asked.
-/

namespace BucketBench

/-- A part that was sent: its number, and the entity tag that the service gave to it. -/
structure UploadedPart where
  number : Nat
  etag : Option String
deriving DecidableEq

/-- What one of the operations on buckets, objects, tags and uploads asks for. -/
inductive Operation where
  | listBuckets
  | createBucket (bucket : String)
  | headBucket (bucket : String)
  | deleteBucket (bucket : String)
  | listObjects (bucket : String) (token : Option String)
  | deleteObjects (bucket : String) (keys : List String)
  | getBucketTags (bucket : String)
  | putBucketTags (bucket : String) (tags : List Tags.Tag)
  | deleteBucketTags (bucket : String)
  | putObject (bucket key : String) (body : Contents) (tagging : Option String)
      (metadata : Option (String × String))
  | getObject (bucket key : String)
  | deleteObject (bucket key : String)
  | getObjectTags (bucket key : String)
  | putObjectTags (bucket key : String) (tags : List Tags.Tag)
  | deleteObjectTags (bucket key : String)
  | createUpload (bucket key : String) (tagging : Option String)
  | uploadPart (bucket key upload : String) (number : Nat) (body : Contents)
  | completeUpload (bucket key upload : String) (parts : List UploadedPart)
  | abortUpload (bucket key upload : String)
deriving DecidableEq

/-- One page of the listing of a bucket: its entries, some of which may lack a key, and where the next page is. -/
structure ListingPage where
  entries : List (Option String)
  isTruncated : Option Bool
  next : Option String
deriving DecidableEq

namespace ListingPage

/-- The keys of a page; entries without one are skipped. -/
def keys (p : ListingPage) : List String := p.entries.filterMap id

/-- The token of the page that follows, when the service says that one does. -/
def following? (p : ListingPage) : Option String := if p.isTruncated = some true then p.next else none

end ListingPage

/-- An object that the service could not delete although it answered. -/
structure UndeletedObject where
  key : Option String
  code : Option String
  message : Option String
deriving DecidableEq

structure FetchedObject where
  etag : Option String
  contentLength : Option Int
  tagCount : Option Int
  body : String
deriving DecidableEq

structure Deletion where
  isMarker : Option Bool
  version : Option String
deriving DecidableEq

namespace Operation

abbrev Answer : Operation → Type
  | .listBuckets => List (Option String)
  | .createBucket _ => Unit
  | .headBucket _ => Option String
  | .deleteBucket _ => Unit
  | .listObjects _ _ => ListingPage
  | .deleteObjects _ _ => List UndeletedObject
  | .getBucketTags _ => List Tags.Tag
  | .putBucketTags _ _ => Unit
  | .deleteBucketTags _ => Unit
  | .putObject _ _ _ _ _ => Option String
  | .getObject _ _ => FetchedObject
  | .deleteObject _ _ => Deletion
  | .getObjectTags _ _ => List Tags.Tag
  | .putObjectTags _ _ _ => Option String
  | .deleteObjectTags _ _ => Option String
  | .createUpload _ _ _ => Option String
  | .uploadPart _ _ _ _ _ => Option String
  | .completeUpload _ _ _ _ => Unit
  | .abortUpload _ _ _ => Unit

/-- The bucket that an operation is about; listing the buckets is about none. -/
def bucket? : Operation → Option String
  | .listBuckets => none
  | .createBucket b | .headBucket b | .deleteBucket b | .listObjects b _ | .deleteObjects b _
  | .getBucketTags b | .putBucketTags b _ | .deleteBucketTags b
  | .putObject b _ _ _ _ | .getObject b _ | .deleteObject b _
  | .getObjectTags b _ | .putObjectTags b _ _ | .deleteObjectTags b _
  | .createUpload b _ _ | .uploadPart b _ _ _ _ | .completeUpload b _ _ _ | .abortUpload b _ _ => some b

/-- The key of the object that an operation is about, if it is about one. -/
def key? : Operation → Option String
  | .putObject _ k _ _ _ | .getObject _ k | .deleteObject _ k
  | .getObjectTags _ k | .putObjectTags _ k _ | .deleteObjectTags _ k
  | .createUpload _ k _ | .uploadPart _ k _ _ _ | .completeUpload _ k _ _ | .abortUpload _ k _ => some k
  | _ => none

def upload? : Operation → Option String
  | .uploadPart _ _ u _ _ | .completeUpload _ _ u _ | .abortUpload _ _ u => some u
  | _ => none

end Operation

end BucketBench
