import BucketBench.Error
import BucketBench.Text.Base64

set_option autoImplicit false

/-!
# Tag sets for tests

Sets of numbered tags, which never repeat a key or a value, and the sets that a service has to refuse: two
tags with one key, and a tag with a character that tags must not have. The tag set of a request is put together
by the library that talks to the service.
-/

namespace BucketBench.Tags

abbrev Tag := String × String

def numberedText (text : String) (i : Nat) : String := text ++ toString i

/-- As many tags as asked for, numbered from zero. -/
def numbered (key value : String) (count : Nat) : List Tag :=
  (List.range count).map fun i => (numberedText key i, numberedText value i)

def sharedKey (key value : String) : List Tag := (List.range 2).map fun i => (key, numberedText value i)

def sharedValue (key value : String) : List Tag := (List.range 2).map fun i => (numberedText key i, value)

/-- What makes a tag unfit: the base64 text of a question mark, with its padding. -/
def unfitEnd : String := String.ofList (Base64.encode (Bytes.ofText "?"))

def unfit (key value : String) : List Tag := [(key ++ unfitEnd, value ++ unfitEnd)]

end BucketBench.Tags

namespace BucketBench

open Tags (Tag)

/-- A library's own tags and tag sets. They are put together from parts that may be left out, and that fails when a
part is missing which they cannot do without. -/
structure TagLibrary where
  Entry : Type
  Collected : Type
  Fault : Type
  entry : (key value : Option String) → Except Fault Entry
  collect : (entries : Option (List Entry)) → Except Fault Collected
  key : Entry → String
  value : Entry → String
  entries : Collected → List Entry
  message : Fault → String

namespace TagLibrary

/-- The tag set of a request, for the call that it belongs to. -/
def ofTags (lib : TagLibrary) (call : String) (tags : List Tag) : Except Error lib.Collected := do
  let fault (e : lib.Fault) : Error := .client call (lib.message e)
  let entries ← (tags.mapM fun t => lib.entry (some t.1) (some t.2)).mapError fault
  (lib.collect (some entries)).mapError fault

def toTags (lib : TagLibrary) (entries : List lib.Entry) : List Tag := entries.map fun e => (lib.key e, lib.value e)

/-- The parts that a tag or a tag set needs. -/
inductive Part where
  | key
  | value
  | entries

/-- Tags as they are. -/
def plain : TagLibrary where
  Entry := Tag
  Collected := List Tag
  Fault := Part
  entry
    | some key, some value => .ok (key, value)
    | none, _ => .error .key
    | some _, none => .error .value
  collect
    | some entries => .ok entries
    | none => .error .entries
  key := (·.1)
  value := (·.2)
  entries := id
  message _ := "<failed to construct request>"

end TagLibrary

end BucketBench
