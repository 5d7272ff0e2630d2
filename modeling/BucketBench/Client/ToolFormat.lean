import BucketBench.Client.Template
import BucketBench.Decode.Record

set_option autoImplicit false

/-!
# Command lines of a bucket tool

How the suite writes commands for a tool that is called with flags, an operation and arguments, and how it
spells buckets and objects for it.
-/

namespace BucketBench

structure ToolFormat where
  tool : String := "s3cmd"
  flags : List String := []
  /-- The URL of a bucket with one mark for its name. -/
  bucketFormat : String := "s3://\x7b\x7d"
deriving DecidableEq

namespace ToolFormat

def decoder : RecordDecoder ToolFormat where
  name := "struct S3CmdFormatter"
  initial := {}
  fields := [
    ("tool", fun v f => do return { f with tool := ← Decode.text v }),
    ("flags", fun v f => do return { f with flags := ← Decode.list Decode.text v }),
    ("bkt_path_format", fun v f => do return { f with bucketFormat := ← Decode.text v })]

def plainScheme : String := "http://"

def secureScheme : String := "https://"

/-- The host of an endpoint: no scheme in front and no slashes behind. -/
def hostOf (endpoint : String) : String :=
  let s := endpoint.toList
  let host := ((Text.afterLead? secureScheme.toList s).orElse fun _ => Text.afterLead? plainScheme.toList s).getD s
  String.ofList (host.reverse.dropWhile (· == '/')).reverse

def credentialFlags (accessKey secretKey endpoint : String) : List String :=
  ["--access_key=" ++ accessKey, "--secret_key=" ++ secretKey, "--host=" ++ hostOf endpoint,
   "--host-bucket=" ++ hostOf endpoint]
    ++ if (Text.afterLead? plainScheme.toList endpoint.toList).isSome then ["--no-ssl"] else []

def withCredentials (f : ToolFormat) (accessKey secretKey endpoint : String) : ToolFormat :=
  { f with flags := f.flags ++ credentialFlags accessKey secretKey endpoint }

def command (f : ToolFormat) (operation : String) (args : List String) : String :=
  String.intercalate " " (f.tool :: f.flags ++ operation :: args)

def bucketUrl (f : ToolFormat) (bucket : String) : String := Template.fillFirst f.bucketFormat bucket

def objectUrl (f : ToolFormat) (bucket key : String) : String := f.bucketUrl bucket ++ "/" ++ key

end ToolFormat

end BucketBench
