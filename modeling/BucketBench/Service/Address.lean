import BucketBench.Service.Operation
import BucketBench.Text.Percent

set_option autoImplicit false

/-!
# Where a service is

The address of a service is a URL without a query. A bucket is named in the path, or in front of the host when
that is wanted and both names allow it: the bucket has to be a label of a domain name, and the host must not be
a number.
-/

namespace BucketBench

structure Address where
  isSecure : Bool
  authority : String
  path : String
deriving DecidableEq

namespace Address

/-- What follows one of the two schemes, and whether it is the secure one. -/
def scheme? (s : List Char) : Option (Bool × List Char) :=
  let lower := s.map Char.toLower
  if (Text.afterLead? "http://".toList lower).isSome then some (false, s.drop 7)
  else if (Text.afterLead? "https://".toList lower).isSome then some (true, s.drop 8)
  else none

def isAuthorityPart (c : Char) : Bool := Percent.isUnreserved c || "!$&'()*+,;=:@[]".contains c

def isPathPart (c : Char) : Bool := 0x20 < c.toNat && c.toNat < 0x7F && !"?\"<>\\^\x60\x7b|\x7d".contains c

/-- The address that a URL gives; what follows a number sign does not count. -/
def ofText? (url : String) : Option Address := do
  let (isSecure, s) ← scheme? url.toList
  let s := s.takeWhile (· != '#')
  let (authority, path) := s.span (· != '/')
  if authority.isEmpty || !authority.all isAuthorityPart || !path.all isPathPart then none
  return ⟨isSecure, String.ofList authority, String.ofList path⟩

/-- The host alone, without a user in front of it or a number behind it. -/
def host (a : Address) : String :=
  let behindUser := (Text.split '@' a.authority).getLast?.getD a.authority
  (Text.split ':' behindUser).head?.getD behindUser

def isOctet (s : String) : Bool := s.toNat?.any (· < 256)

def isNumeric (a : Address) : Bool :=
  let pieces := Text.split '.' a.host
  a.authority.contains '[' || (pieces.length == 4 && pieces.all isOctet)

end Address

/-! ## Names of hosts -/

def isHostLabel (s : String) : Bool :=
  0 < s.length && s.length ≤ 63 && !s.startsWith "-" && s.all fun c => c.isAlphanum || c == '-'

/-- A label, or several of them with dots between. -/
def isHostLabels (s : String) : Bool := (Text.split '.' s).all isHostLabel

def isHostedName (dots : Bool) (bucket : String) : Bool :=
  let cs := bucket.toList
  let isEdge (c : Option Char) : Bool := c.any fun c => c.isLower || c.isDigit
  (if dots then isHostLabels bucket else isHostLabel bucket)
    && 3 ≤ cs.length && cs.length ≤ 63
    && cs.all (fun c => c.isLower || c.isDigit || c == '-' || c == '.')
    && isEdge cs.head? && isEdge cs.getLast?
    && !((Text.split '.' bucket).length == 4 && cs.all fun c => c.isDigit || c == '.')
    && !Text.contains ".-" bucket && !Text.contains "-." bucket

/-- The host that requests go to, and the path that theirs begin with, without a slash at the end. -/
structure Site where
  host : String
  path : String
deriving DecidableEq

namespace Site

def withoutSlash (path : String) : String :=
  match path.toList.reverse with
  | '/' :: r => String.ofList r.reverse
  | _ => path

def withSlash (path : String) : String := if path.endsWith "/" then path else path ++ "/"

/-- Where requests about a bucket go, or about no bucket, for a region and a style of naming. There is no such
place when the region cannot be a name, or for a bucket that is the name of some other resource. -/
def of? (address : Address) (region : String) (pathStyle : Bool) : Option String → Option Site
  | none => if isHostLabels region then some ⟨address.authority, withoutSlash address.path⟩ else none
  | some bucket =>
    let inPath : Site := ⟨address.authority, withSlash address.path ++ Percent.segment bucket⟩
    let inHost : Site := ⟨bucket ++ "." ++ address.authority, withoutSlash address.path⟩
    if bucket.startsWith "arn:" then none
    else if pathStyle then some inPath
    else if isHostedName false bucket then
      if isHostLabel region then some (if address.isNumeric then inPath else inHost) else none
    else if !address.isSecure && isHostedName true bucket then
      if isHostLabel region then some inHost else none
    else some inPath

/-- The path of a request about the bucket or about an object in it. -/
def pathOf (site : Site) (key : Option String) : String := site.path ++ "/" ++ (key.map Percent.path).getD ""

end Site

end BucketBench
