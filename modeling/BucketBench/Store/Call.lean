import BucketBench.Store.Server

set_option autoImplicit false

/-!
# Calls of a document store

What a document store can be asked, and what it answers. A collection in memory and a server behind a
connection answer the same calls.
-/

namespace BucketBench

inductive StoreCall where
  | find (filter : Document)
  | count (filter : Document)
  | distinct (path : String) (filter : Document)
  | updateMany (filter update : Document)
  | insertOne (d : Document)

inductive StoreAnswer where
  | documents (found : List Document)
  | number (n : Nat)
  | values (found : List Value)
  | updated (summary : UpdateSummary)
  | inserted (id : Value)

def Collection.perform (c : Collection) : StoreCall → Except Error StoreAnswer × Collection
  | .find filter => (.ok (.documents (c.find filter)), c)
  | .count filter => (.ok (.number (c.count filter)), c)
  | .distinct path filter => (.ok (.values (c.distinct path filter)), c)
  | .updateMany filter update =>
    match (Collection.updateMany filter update).run c with
    | (.ok summary, c) => (.ok (.updated summary), c)
    | (.error fault, c) => (.error (.store fault), c)
  | .insertOne d => let (id, c) := c.insert d; (.ok (.inserted id), c)

def Server.perform (s : Server) : StoreCall → Except Error StoreAnswer × Server
  | .find filter => ((s.find filter).map .documents, s)
  | .count filter => ((s.count filter).map .number, s)
  | .distinct path filter => ((s.distinct path filter).map .values, s)
  | .updateMany filter update =>
    match s.updateMany filter update with
    | .ok (summary, s) => (.ok (.updated summary), s)
    | .error e => (.error e, s)
  | .insertOne d =>
    match s.insertOne d with
    | .ok (id, s) => (.ok (.inserted id), s)
    | .error e => (.error e, s)

end BucketBench
