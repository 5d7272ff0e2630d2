import BucketBench.Json.Value

set_option autoImplicit false

/-!
# Tables under construction

A table grows statement by statement. It remembers how it came to be: a table that only lies on the way to
another one is implicit and may be opened once by a header of its own; one that dotted keys created may only
be extended by dotted keys; everything else is closed.
-/

namespace BucketBench.Toml

/-- What stands under a key: a finished value, a table, or a list of tables. -/
inductive Node where
  | leaf (v : Value)
  | table (isImplicit isDotted : Bool) (entries : List (String × Node))
  | tables (elements : List (List (String × Node)))

structure Table where
  isImplicit : Bool
  isDotted : Bool
  entries : List (String × Node)

namespace Table

def empty : Table := ⟨false, false, []⟩

def lookup? (key : String) (t : Table) : Option Node := (t.entries.find? fun e => e.1 == key).map (·.2)

/-- Writes an entry: in its place when the key is there, otherwise at the end. -/
def put (key : String) (n : Node) (t : Table) : Table :=
  let rec go : List (String × Node) → List (String × Node)
    | [] => [(key, n)]
    | (k, m) :: rest => if k = key then (k, n) :: rest else (k, m) :: go rest
  { t with entries := go t.entries }

def toNode (t : Table) : Node := .table t.isImplicit t.isDotted t.entries

/-- Changes the table at a path, missing tables on the way being created. Dotted keys do not lead through a
table that a header opened; a list of tables leads into its last one. -/
def within (dotted : Bool) (change : Table → Option Table) : List String → Table → Option Table
  | [], t => change t
  | key :: rest, t =>
    match t.lookup? key with
    | none => do return t.put key (← within dotted change rest ⟨true, dotted, []⟩).toNode
    | some (.leaf _) => none
    | some (.table isImplicit isDotted entries) =>
      if dotted && !isImplicit then none
      else do return t.put key (← within dotted change rest ⟨isImplicit, isDotted, entries⟩).toNode
    | some (.tables elements) =>
      match elements.getLast? with
      | none => none
      | some last => do
        let changed ← within dotted change rest ⟨false, false, last⟩
        return t.put key (.tables (elements.dropLast ++ [changed.entries]))

def opened (key : String) (t : Table) : Option Table :=
  match t.lookup? key with
  | none => some (t.put key (.table false false []))
  | some (.table true false entries) => some (t.put key (.table false false entries))
  | _ => none

def extended (key : String) (t : Table) : Option Table :=
  match t.lookup? key with
  | none => some (t.put key (.tables [[]]))
  | some (.tables elements) => some (t.put key (.tables (elements ++ [[]])))
  | _ => none

/-- Assigns a value to a new key. Behind a dotted key the table has to be one that dotted keys made. -/
def assigned (behindDots : Bool) (key : String) (v : Value) (t : Table) : Option Table :=
  if t.isDotted != behindDots then none
  else match t.lookup? key with
    | none => some (t.put key (.leaf v))
    | some _ => none

def assign (path : List String) (v : Value) (t : Table) : Option Table :=
  match path.getLast? with
  | none => none
  | some key => within true (assigned (path.length != 1) key v) path.dropLast t

end Table

mutual

def Node.toValue : Node → Value
  | .leaf v => v
  | .table _ _ entries => .object (Node.toMembers entries)
  | .tables elements => .array (Node.toObjects elements)

def Node.toMembers : List (String × Node) → Document
  | [] => []
  | (k, n) :: rest => (k, n.toValue) :: Node.toMembers rest

def Node.toObjects : List (List (String × Node)) → List Value
  | [] => []
  | entries :: rest => .object (Node.toMembers entries) :: Node.toObjects rest

end

def inlineTable? (entries : List (List String × Value)) : Option Value :=
  (entries.foldlM (fun (t : Table) (e : List String × Value) => t.assign e.1 e.2) Table.empty).map
    fun t => t.toNode.toValue

end BucketBench.Toml
