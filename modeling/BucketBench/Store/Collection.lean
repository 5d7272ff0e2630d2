import BucketBench.Store.Filter
import BucketBench.Store.Update

set_option autoImplicit false

/-!
# Collections of documents

A collection keeps its documents in the order of insertion, each with an identifier. An update changes all
the documents that match or, when one of them cannot take it, none.
-/

namespace BucketBench

def idField : String := "_id"

/-- How many documents an update matched, and how many it changed. -/
structure UpdateSummary where
  matched : Nat
  modified : Nat
deriving DecidableEq

/-- Documents in order, and the identifiers that a generator has yet to hand out, whichever these are. -/
structure Collection where
  documents : List Document
  fresh : Nat → String

namespace Collection

def empty (fresh : Nat → String) : Collection := ⟨[], fresh⟩

/-- Adds a document; one without an identifier gets a fresh one, as its last field. -/
def insert (c : Collection) (d : Document) : Value × Collection :=
  match d.get? idField with
  | some id => (id, ⟨c.documents ++ [d], c.fresh⟩)
  | none =>
    let id := Value.string (c.fresh 0)
    (id, ⟨c.documents ++ [Document.insert idField id d], fun n => c.fresh (n + 1)⟩)

/-- Identifiers that tell nothing but the order in which they are handed out. -/
def numbered (n : Nat) : String := "$id" ++ toString n

def ofDocuments (documents : List Document) (fresh : Nat → String := numbered) : Collection :=
  documents.foldl (fun c d => (c.insert d).2) (empty fresh)

def size (c : Collection) : Nat := c.documents.length

/-- The documents that match a filter, in order. -/
def find (c : Collection) (filter : Document) : List Document :=
  c.documents.filter (Document.matchesFilter filter)

def count (c : Collection) (filter : Document) : Nat := (c.find filter).length

/-- The values that one document contributes at a path: the elements of an array, or the value itself. -/
def valuesAt (path : List String) (d : Document) : List Value :=
  match d.at? path with
  | some (.array items) => items
  | some v => [v]
  | none => []

def addNew (seen : List Value) (v : Value) : List Value := if v.isIn seen then seen else seen ++ [v]

/-- The different values at a path over the matching documents, in order of first sight. -/
def distinct (c : Collection) (path : String) (filter : Document) : List Value :=
  ((c.find filter).flatMap (valuesAt (pathKeys path))).foldl addNew []

/-- The copies that edits make of the matching documents from a place on, each with its place, and the count of
them. A document that no edit changes gets no copy. -/
def prepare (filter : Document) (edits : List Edit) :
    (place : Nat) → List Document → Except StoreFault (UpdateSummary × List (Nat × Document))
  | _, [] => .ok (⟨0, 0⟩, [])
  | place, d :: rest =>
    if Document.matchesFilter filter d then do
      let (after, changed) ← Edit.applyAll edits d
      let (summary, copies) ← prepare filter edits (place + 1) rest
      return if changed then (⟨summary.matched + 1, summary.modified + 1⟩, (place, after) :: copies)
        else (⟨summary.matched + 1, summary.modified⟩, copies)
    else prepare filter edits (place + 1) rest

def commit (copies : List (Nat × Document)) (documents : List Document) : List Document :=
  copies.foldl (fun ds copy => ds.set copy.1 copy.2) documents

/-- Applies an update to every matching document. Copies replace the documents only when all of them are made. -/
def updateMany (filter update : Document) : ExceptT StoreFault (StateM Collection) UpdateSummary := do
  let edits ← Edit.ofUpdate update
  let c ← get
  let (summary, copies) ← prepare filter edits 0 c.documents
  set { c with documents := commit copies c.documents }
  return summary

end Collection

end BucketBench
