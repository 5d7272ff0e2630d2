import BucketBench.Yaml.Token

set_option autoImplicit false

/-!
# The nodes of a YAML document

Tokens make up one tree of scalars, sequences and mappings. A node may carry an anchor, and an alias stands for
a node with an anchor. Anchors are numbered by how many names there are so far; a name that is used again
takes the next number, which the next new name then shares, and the node that begins last answers to a number.
-/

namespace BucketBench.Yaml

/-- A node with its tag, when it has one. -/
inductive Node where
  | scalar (tag : Option String) (isPlain : Bool) (text : String)
  | sequence (tag : Option String) (items : List Node)
  | mapping (tag : Option String) (entries : List (Node × Node))
  | alias (number : Nat)
deriving Inhabited

namespace Node

def empty : Node := .scalar none true ""

mutual

/-- How many steps it takes to go through a node: one for a scalar or an alias, two around what is inside. -/
def size : Node → Nat
  | .sequence _ items => 2 + sizeItems items
  | .mapping _ entries => 2 + sizeEntries entries
  | _ => 1

def sizeItems : List Node → Nat
  | [] => 0
  | n :: rest => size n + sizeItems rest

def sizeEntries : List (Node × Node) → Nat
  | [] => 0
  | (k, v) :: rest => size k + size v + sizeEntries rest

end

end Node

/-- The anchors met so far: the number of each name, the node that answers to each number, and the nodes
themselves, each under the order in which they began. -/
structure Anchors where
  names : List (String × Nat)
  answers : List (Nat × Nat)
  nodes : List (Nat × Node)

namespace Anchors

def none : Anchors := ⟨[], [], []⟩

def number? (name : String) (a : Anchors) : Option Nat := a.names.lookup name

def begin (name : String) (a : Anchors) : Anchors :=
  let number := a.names.length
  { a with
    names := (name, number) :: a.names.filter (·.1 != name)
    answers := (number, a.answers.length) :: a.answers }

def complete (order : Nat) (n : Node) (a : Anchors) : Anchors := { a with nodes := (order, n) :: a.nodes }

def node? (number : Nat) (a : Anchors) : Option Node := (a.answers.lookup number).bind (a.nodes.lookup ·)

end Anchors

/-! ## Nodes from tokens -/

/-- Tokens still to be read, the tag handles in force, and the anchors so far. -/
structure Composer where
  tokens : List Token
  handles : List (String × String)
  anchors : Anchors

/-- Takes tokens and gives a result, or fails. -/
abbrev Compose (α : Type) := StateT Composer Option α

namespace Compose

def peek : Compose (Option Token) := do return (← get).tokens.head?

def skip : Compose Unit := modify fun c => { c with tokens := c.tokens.tail }

def isNext (tokens : List Token) : Compose Bool := do
  match ← peek with
  | some t => return t ∈ tokens
  | none => return false

def expect (t : Token) : Compose Unit := do
  if ← isNext [t] then skip else failure

def resolveTag (handle rest : String) : Compose String := do
  if handle.isEmpty then return rest
  match (← get).handles.lookup handle with
  | some lead => return lead ++ rest
  | none => failure

def readTag? : Compose (Option String) := do
  match ← peek with
  | some (.tag handle rest) =>
    skip
    return some (← resolveTag handle rest)
  | _ => return none

def readAnchor? : Compose (Option String) := do
  match ← peek with
  | some (.anchor name) =>
    skip
    return some name
  | _ => return none

/-- The properties of a node: an anchor and a tag in either order. -/
def readProperties : Compose (Option String × Option String) := do
  match ← readAnchor? with
  | some name => return (some name, ← readTag?)
  | none =>
    let tag ← readTag?
    if tag.isSome then return (← readAnchor?, tag) else return (none, none)

/-- Reads a node under an anchor, which is known from the node's beginning on. -/
def anchored (anchor : Option String) (read : Compose Node) : Compose Node := do
  match anchor with
  | none => read
  | some name =>
    let order := (← get).anchors.answers.length
    modify fun c => { c with anchors := c.anchors.begin name }
    let n ← read
    modify fun c => { c with anchors := c.anchors.complete order n }
    return n

def isLeftOut : Compose Bool := isNext [.key, .value, .blockEnd]

mutual

/-- Reads a node. Blocks may stand where `block` holds; there a sequence in a mapping need not be indented. -/
def node (block unindented : Bool) : Nat → Compose Node
  | 0 => failure
  | fuel + 1 => do
    match ← peek with
    | some (.alias name) =>
      skip
      match (← get).anchors.number? name with
      | some number => return .alias number
      | none => failure
    | _ =>
      let (anchor, tag) ← readProperties
      match ← peek with
      | some (.scalar isPlain text) =>
        skip
        anchored anchor (return .scalar tag isPlain text)
      | some .flowSequence =>
        skip
        anchored anchor do return .sequence tag (← flowItems true fuel)
      | some .flowMapping =>
        skip
        anchored anchor do return .mapping tag (← flowEntries true fuel)
      | some .blockSequence =>
        if !block then failure
        skip
        anchored anchor do return .sequence tag (← blockItems fuel)
      | some .blockMapping =>
        if !block then failure
        skip
        anchored anchor do return .mapping tag (← blockEntries fuel)
      | next =>
        if unindented && next == some .entry then
          anchored anchor do return .sequence tag (← unindentedItems fuel)
        else if anchor.isSome || tag.isSome then
          anchored anchor (return .scalar tag true "")
        else failure

def blockItems : Nat → Compose (List Node)
  | 0 => failure
  | fuel + 1 => do
    if ← isNext [.blockEnd] then
      skip
      return []
    expect .entry
    let n ← if ← isNext [.entry, .blockEnd] then pure Node.empty else node true false fuel
    return n :: (← blockItems fuel)

/-- The elements of a sequence that is indented like the key it belongs to. -/
def unindentedItems : Nat → Compose (List Node)
  | 0 => failure
  | fuel + 1 => do
    if !(← isNext [.entry]) then return []
    skip
    let n ← if ← isNext [.entry, .key, .value, .blockEnd] then pure Node.empty else node true false fuel
    return n :: (← unindentedItems fuel)

def blockEntries : Nat → Compose (List (Node × Node))
  | 0 => failure
  | fuel + 1 => do
    if ← isNext [.blockEnd] then
      skip
      return []
    expect .key
    let k ← if ← isLeftOut then pure Node.empty else node true true fuel
    let v ← blockValue fuel
    return (k, v) :: (← blockEntries fuel)

def blockValue : Nat → Compose Node
  | 0 => failure
  | fuel + 1 => do
    if !(← isNext [.value]) then return Node.empty
    skip
    if ← isLeftOut then return Node.empty
    node true true fuel

/-- The elements of a bracketed sequence; a single pair of key and value stands for a mapping. -/
def flowItems (first : Bool) : Nat → Compose (List Node)
  | 0 => failure
  | fuel + 1 => do
    if ← isNext [.flowSequenceEnd] then
      skip
      return []
    if !first then expect .comma
    if ← isNext [.flowSequenceEnd] then
      skip
      return []
    let n ← if ← isNext [.key] then
        skip
        flowPair fuel
      else node false false fuel
    return n :: (← flowItems false fuel)

def flowPair : Nat → Compose Node
  | 0 => failure
  | fuel + 1 => do
    let k ← if ← isNext [.value, .comma, .flowSequenceEnd] then
        skip
        pure Node.empty
      else node false false fuel
    let v ← flowValue .flowSequenceEnd fuel
    return .mapping none [(k, v)]

/-- The value behind a key in brackets that end with the given mark. -/
def flowValue (closing : Token) : Nat → Compose Node
  | 0 => failure
  | fuel + 1 => do
    if !(← isNext [.value]) then return Node.empty
    skip
    if ← isNext [.comma, closing] then return Node.empty
    node false false fuel

/-- The entries of a mapping in braces; a key alone has no value. -/
def flowEntries (first : Bool) : Nat → Compose (List (Node × Node))
  | 0 => failure
  | fuel + 1 => do
    if ← isNext [.flowMappingEnd] then
      skip
      return []
    if !first then expect .comma
    if ← isNext [.flowMappingEnd] then
      skip
      return []
    let e ← if ← isNext [.key] then
        skip
        let k ← if ← isNext [.value, .comma, .flowMappingEnd] then pure Node.empty else node false false fuel
        pure (k, ← flowValue .flowMappingEnd fuel)
      else pure (← node false false fuel, Node.empty)
    return e :: (← flowEntries false fuel)

end

/-! ## Documents -/

/-- A directive in front of a document: the version has to be 1.1 or 1.2. -/
def readDirectives : Nat → Bool → Compose Unit
  | 0, _ => failure
  | fuel + 1, versioned => do
    match ← peek with
    | some (.version major minor) =>
      if versioned || major != 1 || (minor != 1 && minor != 2) then failure
      skip
      readDirectives fuel true
    | some (.shorthand handle lead) =>
      if ((← get).handles.lookup handle).isSome then failure
      modify fun c => { c with handles := (handle, lead) :: c.handles }
      skip
      readDirectives fuel versioned
    | _ => return ()

/-- The handles that every document has unless a directive says otherwise. -/
def commonHandles : List (String × String) := [("!", "!"), ("!!", "tag:yaml.org,2002:")]

def isFrame (t : Option Token) : Bool :=
  match t with
  | none | some .documentStart | some .documentEnd | some (.version ..) | some (.shorthand ..) => true
  | _ => false

/-- Reads the only document of a text: its node, and nothing behind it but marks of its end. -/
def document (fuel : Nat) : Compose Node := do
  let start ← peek
  let framed := start != some .documentEnd && isFrame start
  if framed then
    readDirectives fuel false
    expect .documentStart
  modify fun c => { c with handles := c.handles ++ commonHandles }
  let n ← if framed && isFrame (← peek) then pure Node.empty else node true false fuel
  modify fun c => { c with tokens := c.tokens.dropWhile (· == .documentEnd) }
  if (← peek).isSome then failure
  return n

end Compose

/-- A document: its node and the anchors in it. -/
structure Root where
  node : Node
  anchors : Anchors

/-- The document that a text holds; a text without tokens holds nothing. -/
def root? (text : String) : Option Root := do
  let tokens ← tokens? text
  if tokens.isEmpty then return ⟨Node.empty, Anchors.none⟩
  let (n, c) ← (Compose.document (3 * tokens.length + 3)).run ⟨tokens, [], Anchors.none⟩
  return ⟨n, c.anchors⟩

end BucketBench.Yaml
