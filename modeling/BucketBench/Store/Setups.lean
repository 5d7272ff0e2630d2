import BucketBench.Json.Printer
import BucketBench.Store.Collection

set_option autoImplicit false

/-!
# Setup details

Each setup document describes one lab system and names it in the field `setupname`. Setups are listed by
name: a repeated name keeps its first place and its last document, and documents without a name are left out.
-/

namespace BucketBench.Setups

def nameField : String := "setupname"

/-- The name of a setup: its text, or the JSON of any other value. -/
def nameOf? (d : Document) : Option String :=
  match d.get? nameField with
  | some (.string name) => some name
  | some v => some (Json.compact v)
  | none => none

/-- A setup as it is listed, without its identifier when that is to be dropped. -/
def shown (dropId : Bool) (d : Document) : Document := if dropId then d.remove idField else d

def addTo (dropId : Bool) (listing : Document) (d : Document) : Document :=
  let d := shown dropId d
  match nameOf? d with
  | some name => listing.insert name (.object d)
  | none => listing

def byName (dropId : Bool) (documents : List Document) : Document :=
  documents.foldl (addTo dropId) []

end BucketBench.Setups
