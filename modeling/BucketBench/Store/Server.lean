import BucketBench.Store.Collection
import BucketBench.Store.Wire

set_option autoImplicit false

/-!
# The database behind a connection

A server keeps one collection and may refuse commands. Every call converts its documents first, then is
refused or carried out on the collection; the client itself refuses an update without operators. A failed
call leaves the collection as it was.
-/

namespace BucketBench

inductive ServerCommand where
  | find
  | aggregate
  | distinct
  | update
  | insert
deriving DecidableEq

structure Server where
  collection : Collection
  refuses : List ServerCommand

namespace Server

def refused : Error := .store .refused

def wire (d : Document) : Except Error Document :=
  match Wire.document? d with
  | some d => .ok d
  | none => .error refused

def accept (s : Server) (command : ServerCommand) : Except Error Unit :=
  if command ∈ s.refuses then .error refused else .ok ()

def find (s : Server) (filter : Document) : Except Error (List Document) := do
  let filter ← wire filter
  s.accept .find
  (s.collection.find filter).mapM wire

def count (s : Server) (filter : Document) : Except Error Nat := do
  let filter ← wire filter
  s.accept .aggregate
  return s.collection.count filter

def distinct (s : Server) (path : String) (filter : Document) : Except Error (List Value) := do
  let filter ← wire filter
  s.accept .distinct
  match Wire.items? (s.collection.distinct path filter) with
  | some values => return values
  | none => throw refused

def startsWithOperator (update : Document) : Bool :=
  match update with
  | (key, _) :: _ => Edit.isOperator key
  | [] => false

def updateMany (s : Server) (filter update : Document) : Except Error (UpdateSummary × Server) := do
  let filter ← wire filter
  let update ← wire update
  if !startsWithOperator update then throw refused
  s.accept .update
  match (Collection.updateMany filter update).run s.collection with
  | (.ok summary, collection) => return (summary, { s with collection })
  | (.error _, _) => throw refused

/-- The client names a document without an identifier itself and puts the name first. -/
def named (s : Server) (d : Document) : Document × (Nat → String) :=
  if d.contains idField then (d, s.collection.fresh)
  else
    let id := Value.object [("$oid", .string (s.collection.fresh 0))]
    ((idField, id) :: d, fun n => s.collection.fresh (n + 1))

def insertOne (s : Server) (d : Document) : Except Error (Value × Server) := do
  let d ← wire d
  let (d, fresh) := s.named d
  s.accept .insert
  let (id, collection) := Collection.insert ⟨s.collection.documents, fresh⟩ d
  return (id, { s with collection })

end Server

end BucketBench
