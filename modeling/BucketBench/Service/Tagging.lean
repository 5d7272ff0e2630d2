import BucketBench.Service.Dialogue

set_option autoImplicit false

/-!
# Tags of buckets and objects

Setting, reading and deleting tag sets. Every call that sets tags has a set of its own: numbered tags, two tags
with a key or a value in common, or a tag that has to be refused.
-/

namespace BucketBench.Account

/-- The tags of a request, put together for the call that sends them. -/
def requestTags (call : String) (tags : List Tags.Tag) : Except Error (List Tags.Tag) := do
  let collected ← TagLibrary.plain.ofTags call tags
  return TagLibrary.plain.toTags (TagLibrary.plain.entries collected)

def putBucketTags (a : Account) (call bucket : String) (tags : List Tags.Tag) : Dialogue Unit := do
  let tags ← requestTags call tags
  a.send call (.putBucketTags bucket tags)

def setBucketTag (a : Account) (bucket key value : String) (count : Nat) : Dialogue Unit :=
  a.putBucketTags "set_bucket_tag" bucket (Tags.numbered key value count)

def setBucketTagSharedKey (a : Account) (bucket key value : String) : Dialogue Unit :=
  a.putBucketTags "set_bucket_tag_duplicate_keys" bucket (Tags.sharedKey key value)

def setBucketTagUnfit (a : Account) (bucket key value : String) : Dialogue Unit :=
  a.putBucketTags "set_bucket_tag_invalid_char" bucket (Tags.unfit key value)

def getBucketTags (a : Account) (bucket : String) : Dialogue (List Tags.Tag) :=
  a.send "get_bucket_tags" (.getBucketTags bucket)

def deleteBucketTags (a : Account) (bucket : String) : Dialogue Unit :=
  a.send "delete_bucket_tagging" (.deleteBucketTags bucket)

/-- The version of the object that the tags belong to, if the service names one. -/
def putObjectTags (a : Account) (call bucket key : String) (tags : List Tags.Tag) : Dialogue (Option String) := do
  let tags ← requestTags call tags
  a.send call (.putObjectTags bucket key tags)

def setObjectTag (a : Account) (bucket key tagKey tagValue : String) (count : Nat) : Dialogue (Option String) :=
  a.putObjectTags "set_object_tag" bucket key (Tags.numbered tagKey tagValue count)

/-- Two tags that share their key, or else their value. -/
def setObjectTagsShared (a : Account) (bucket key tagKey tagValue : String) (sharesKey : Bool) :
    Dialogue (Option String) :=
  a.putObjectTags "set_duplicate_object_tags" bucket key
    (if sharesKey then Tags.sharedKey tagKey tagValue else Tags.sharedValue tagKey tagValue)

def setObjectTagUnfit (a : Account) (bucket key tagKey tagValue : String) : Dialogue (Option String) :=
  a.putObjectTags "set_object_tag_invalid_char" bucket key (Tags.unfit tagKey tagValue)

def getObjectTags (a : Account) (bucket key : String) : Dialogue (List Tags.Tag) :=
  a.send "get_object_tags" (.getObjectTags bucket key)

def deleteObjectTags (a : Account) (bucket key : String) : Dialogue (Option String) :=
  a.send "delete_object_tagging" (.deleteObjectTags bucket key)

end BucketBench.Account
