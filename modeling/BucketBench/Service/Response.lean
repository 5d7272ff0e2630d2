import BucketBench.Service.Operation
import BucketBench.World.Timestamp
import BucketBench.Xml.Element

set_option autoImplicit false

/-!
# Answers of a service

What comes back for a request, and what it says: the answer to the operation, or why there is none. An answer
is an error when its status says so or when its document does; only the answer that is an object's own text
is not looked into.
-/

namespace BucketBench

structure Response where
  status : Nat
  headers : List (String × String)
  body : String
deriving DecidableEq

/-- What happens to a request: the line breaks, or an answer comes. -/
inductive Reply where
  | refused
  | answered (response : Response)
deriving DecidableEq

inductive ServiceFault where
  | incomplete
  | unreachable
  | unusable
  | rejected (code : String) (text : Option String)
deriving DecidableEq

def ServiceFault.message : ServiceFault → String
  | .incomplete => "<failed to construct request>"
  | .unreachable => "<dispatch failure>"
  | .unusable => "<service error>"
  | .rejected code none => code
  | .rejected code (some text) => code ++ ": " ++ text

namespace Xml.Element

/-! ## Typed parts of a document -/

/-- The children with a name as values of some kind; the last one counts. -/
def valueOf? {α : Type} (read : String → Option α) (e : Element) (base : String) : Option (Option α) := do
  let texts ← (e.named base).mapM data?
  return (← texts.mapM read).getLast?

/-- Whether the children with some names are texts, as far as there are any. -/
def areTexts (e : Element) (bases : List String) : Bool := bases.all fun b => (e.field? b).isSome

def flag? : String → Option Bool
  | "true" => some true
  | "false" => some false
  | _ => none

def expect? (base document : String) : Option Element := (root? document).filter fun e => e.name.isPlain base

/-- The last child with a name, when every one of them can be read. -/
def lastOf? {α : Type} (read : Element → Option α) (e : Element) (base : String) : Option (Option α) := do
  return (← (e.named base).mapM read).getLast?

end Xml.Element

namespace Response

open Xml (Element)

/-! ## Headers -/

/-- A header, whatever the case of its name, without blanks around its value. -/
def header? (r : Response) (name : String) : Option String :=
  (r.headers.find? fun h => h.1.toLower == name).map fun h => Text.trim h.2

/-- A header of some kind; an empty one counts as missing. -/
def headerAs? {α : Type} (read : String → Option α) (r : Response) (name : String) : Option (Option α) :=
  match r.header? name with
  | none => some none
  | some s => if s = "" then some none else (read s).map some

/-! ## Errors -/

/-- The code and the text of an error document, by the names of its parts without their prefixes. -/
def errorParts? (document : String) : Option (Option String × Option String) := do
  let root ← Element.root? document
  let part (base : String) : Option (Option String) := do
    let texts ← (root.children.filter fun c => c.name.base == base).mapM Element.data?
    return texts.getLast?
  return (← part "Code", ← part "Message")

def rejection (r : Response) : ServiceFault :=
  if r.body = "" then if r.status = 404 then .rejected "NotFound" none else .unusable
  else match errorParts? r.body with
    | some (some code, text) => .rejected code text
    | _ => .unusable

def isSuccess (r : Response) : Bool := 200 ≤ r.status && r.status < 300

/-- Whether the document of an answer is an error, whatever its status. -/
def isErrorDocument (r : Response) : Bool := (Element.expect? "Error" r.body).isSome

/-! ## Documents -/

def bucketName? (e : Element) : Option (Option String) := do
  discard (e.valueOf? Timestamp.ofText? "CreationDate")
  if !e.areTexts ["BucketRegion", "BucketArn"] then none
  e.field? "Name"

/-- Elements whose texts have to be readable and say nothing to a client. -/
def owner? (e : Element) : Option Unit := if e.areTexts ["DisplayName", "ID"] then some () else none

def bucketNames? (document : String) : Option (List (Option String)) := do
  let root ← Element.expect? "ListAllMyBucketsResult" document
  if !root.areTexts ["ContinuationToken", "Prefix"] then none
  discard (root.lastOf? owner? "Owner")
  let names ← root.lastOf? (fun e => (e.named "Bucket").mapM bucketName?) "Buckets"
  return names.getD []

def entryKey? (e : Element) : Option (Option String) := do
  discard (e.valueOf? Timestamp.ofText? "LastModified")
  discard (e.valueOf? (Digits.readInt? .int64) "Size")
  discard (e.lastOf? owner? "Owner")
  if !e.areTexts ["ETag", "ChecksumAlgorithm", "ChecksumType", "StorageClass"] then none
  e.field? "Key"

def listingPage? (document : String) : Option ListingPage := do
  let root ← Element.expect? "ListBucketResult" document
  discard (root.valueOf? (Digits.readInt? .int32) "MaxKeys")
  discard (root.valueOf? (Digits.readInt? .int32) "KeyCount")
  if !root.areTexts ["Name", "Prefix", "Delimiter", "EncodingType", "ContinuationToken", "StartAfter"] then none
  return {
    entries := ← (root.named "Contents").mapM entryKey?
    isTruncated := ← root.valueOf? Element.flag? "IsTruncated"
    next := ← root.field? "NextContinuationToken" }

def undeletedObject? (e : Element) : Option UndeletedObject := do
  if !e.areTexts ["VersionId"] then none
  return ⟨← e.field? "Key", ← e.field? "Code", ← e.field? "Message"⟩

def deletedObject? (e : Element) : Option Unit := do
  discard (e.valueOf? Element.flag? "DeleteMarker")
  if e.areTexts ["Key", "VersionId", "DeleteMarkerVersionId"] then some () else none

def undeletedObjects? (document : String) : Option (List UndeletedObject) := do
  let root ← Element.expect? "DeleteResult" document
  discard ((root.named "Deleted").mapM deletedObject?)
  (root.named "Error").mapM undeletedObject?

/-- A tag; a key or a value that is missing is empty. -/
def tag? (e : Element) : Option Tags.Tag := do return ((← e.field? "Key").getD "", (← e.field? "Value").getD "")

def tags? (document : String) : Option (List Tags.Tag) := do
  let root ← Element.expect? "Tagging" document
  let sets ← root.lastOf? (fun e => (e.named "Tag").mapM tag?) "TagSet"
  return sets.getD []

def uploadId? (document : String) : Option (Option String) := do
  let root ← Element.expect? "InitiateMultipartUploadResult" document
  if !root.areTexts ["Bucket", "Key"] then none
  root.field? "UploadId"

def completionParts : List String :=
  ["Location", "Bucket", "Key", "ETag", "ChecksumCRC32", "ChecksumCRC32C", "ChecksumCRC64NVME", "ChecksumSHA1",
   "ChecksumSHA256", "ChecksumType"]

def completion? (document : String) : Option Unit := do
  let root ← Element.expect? "CompleteMultipartUploadResult" document
  if root.areTexts completionParts then some () else none

def fetchedObject? (r : Response) : Option FetchedObject := do
  discard (r.headerAs? Element.flag? "x-amz-delete-marker")
  return {
    etag := r.header? "etag"
    contentLength := ← r.headerAs? (Digits.readInt? .int64) "content-length"
    tagCount := ← r.headerAs? (Digits.readInt? .int32) "x-amz-tagging-count"
    body := r.body }

def deletion? (r : Response) : Option Deletion := do
  return ⟨← r.headerAs? Element.flag? "x-amz-delete-marker", r.header? "x-amz-version-id"⟩

end Response

namespace Operation

def isFetch : Operation → Bool
  | .getObject .. => true
  | _ => false

/-- What a successful answer says, when it can be read. -/
def accept? : (op : Operation) → Response → Option op.Answer
  | .listBuckets, r => Response.bucketNames? r.body
  | .createBucket _, _ => some ()
  | .headBucket _, r => some (r.header? "x-amz-bucket-region")
  | .deleteBucket _, _ => some ()
  | .listObjects _ _, r => Response.listingPage? r.body
  | .deleteObjects _ _, r => Response.undeletedObjects? r.body
  | .getBucketTags _, r => Response.tags? r.body
  | .putBucketTags _ _, _ => some ()
  | .deleteBucketTags _, _ => some ()
  | .putObject _ _ _ _ _, r => some (r.header? "etag")
  | .getObject _ _, r => r.fetchedObject?
  | .deleteObject _ _, r => r.deletion?
  | .getObjectTags _ _, r => Response.tags? r.body
  | .putObjectTags _ _ _, r => some (r.header? "x-amz-version-id")
  | .deleteObjectTags _ _, r => some (r.header? "x-amz-version-id")
  | .createUpload _ _ _, r => Response.uploadId? r.body
  | .uploadPart _ _ _ _ _, r => some (r.header? "etag")
  | .completeUpload _ _ _ _, r => Response.completion? r.body
  | .abortUpload _ _ _, _ => some ()

def judge (op : Operation) (r : Response) : Except ServiceFault op.Answer :=
  if !r.isSuccess || (!op.isFetch && r.isErrorDocument) then .error r.rejection
  else match op.accept? r with
    | some answer => .ok answer
    | none => .error .unusable

def outcome (op : Operation) : Reply → Except ServiceFault op.Answer
  | .refused => .error .unreachable
  | .answered r => op.judge r

end Operation

end BucketBench
