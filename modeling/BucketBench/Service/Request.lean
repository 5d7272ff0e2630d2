import BucketBench.Service.Operation
import BucketBench.Text.Percent
import BucketBench.Xml.Writer

set_option autoImplicit false

/-!
# Operations as requests

How an operation is put to the service: the method, what stands behind the path, the headers that carry tags
and metadata, and the body. Names and values in a query are percent encoded and sorted.
-/

namespace BucketBench

namespace Operation

inductive Method where
  | get
  | head
  | put
  | post
  | delete
deriving DecidableEq

def Method.name : Method → String
  | .get => "GET"
  | .head => "HEAD"
  | .put => "PUT"
  | .post => "POST"
  | .delete => "DELETE"

def method : Operation → Method
  | .listBuckets | .listObjects .. | .getBucketTags _ | .getObject .. | .getObjectTags .. => .get
  | .headBucket _ => .head
  | .createBucket _ | .putBucketTags .. | .putObject .. | .putObjectTags .. | .uploadPart .. => .put
  | .deleteObjects .. | .createUpload .. | .completeUpload .. => .post
  | .deleteBucket _ | .deleteBucketTags _ | .deleteObject .. | .deleteObjectTags .. | .abortUpload .. => .delete

def valued (name value : String) : String := name ++ "=" ++ Percent.segment value

def query : Operation → List String
  | .listObjects _ none => ["list-type=2"]
  | .listObjects _ (some token) => [valued "continuation-token" token, "list-type=2"]
  | .deleteObjects .. => ["delete"]
  | .getBucketTags _ | .putBucketTags .. | .deleteBucketTags _
  | .getObjectTags .. | .putObjectTags .. | .deleteObjectTags .. => ["tagging"]
  | .createUpload .. => ["uploads"]
  | .uploadPart _ _ upload number _ => [valued "partNumber" (toString number), valued "uploadId" upload]
  | .completeUpload _ _ upload _ | .abortUpload _ _ upload => [valued "uploadId" upload]
  | _ => []

/-! ## Headers -/

def metadataHeader (name : String) : String := "x-amz-meta-" ++ name.toLower

/-- The headers that carry tags and metadata, in the order of their names. -/
def headers : Operation → List (String × String)
  | .putObject _ _ _ tagging metadata =>
    ((metadata.map fun (name, value) => (metadataHeader name, value)).toList)
      ++ (tagging.map fun t => ("x-amz-tagging", t)).toList
  | .createUpload _ _ tagging => (tagging.map fun t => ("x-amz-tagging", t)).toList
  | _ => []

def isHeaderNamePart (c : Char) : Bool := c.isAlphanum || "!#$%&'*+-.^_|~".contains c || c == '\x60'

def isHeaderValuePart (c : Char) : Bool := c == '\t' || (0x20 ≤ c.toNat && c.toNat != 0x7F)

def isHeader (h : String × String) : Bool := h.1.all isHeaderNamePart && h.2.all isHeaderValuePart

/-- Whether a request can be made of an operation: no name that it needs is empty, and its headers are headers. -/
def isComplete (op : Operation) : Bool :=
  op.bucket?.all (· != "") && op.key?.all (· != "") && op.upload?.all (· != "") && op.headers.all isHeader

/-! ## Bodies -/

def vocabulary : String := "http://s3.amazonaws.com/doc/2006-03-01/"

def tagElement (t : Tags.Tag) : String := Xml.branch "Tag" [Xml.leaf "Key" t.1, Xml.leaf "Value" t.2]

def tagDocument (tags : List Tags.Tag) : String :=
  Xml.document vocabulary "Tagging" [Xml.branch "TagSet" (tags.map tagElement)]

/-- The keys to delete; the service is asked to name only those that it could not delete. -/
def deletionDocument (keys : List String) : String :=
  Xml.document vocabulary "Delete"
    (keys.map (fun k => Xml.branch "Object" [Xml.leaf "Key" k]) ++ [Xml.leaf "Quiet" "true"])

def partElement (p : UploadedPart) : String :=
  Xml.branch "Part" ((p.etag.map (Xml.leaf "ETag")).toList ++ [Xml.leaf "PartNumber" (toString p.number)])

def completionDocument (parts : List UploadedPart) : String :=
  Xml.document vocabulary "CompleteMultipartUpload" (parts.map partElement)

def documentBody (text : String) : Contents := .bytes (Bytes.ofText text)

/-- The body of the request; most have none. -/
def body : Operation → Contents
  | .putObject _ _ body _ _ | .uploadPart _ _ _ _ body => body
  | .putBucketTags _ tags | .putObjectTags _ _ tags => documentBody (tagDocument tags)
  | .deleteObjects _ keys => documentBody (deletionDocument keys)
  | .completeUpload _ _ _ parts => documentBody (completionDocument parts)
  | _ => .bytes []

end Operation

end BucketBench
