import BucketBench.Number.Digits
import BucketBench.Xml.Token

set_option autoImplicit false

/-!
# Elements of XML

The tree of a document. An element ends where an end tag with its name stands at its depth, and any other end
tag is passed over; the end of the document ends every element. A reader looks at the parts it knows, so a
document is refused only where a part that is looked at is not readable: `Element.data?` of an element is its
first text with the references resolved.
-/

namespace BucketBench.Xml

/-- A part of an element; `fault` is where the document stops being well formed. -/
inductive Node where
  | text (raw : List Char)
  | fault
  | element (name : Name) (children : List Node)

/-! ## The tree of a document -/

/-- An element that has not ended: its name, its depth, and its parts so far, the last one first. -/
structure Scope where
  name : Name
  depth : Nat
  parts : List Node

namespace Scope

def add (s : Scope) (n : Node) : Scope := { s with parts := n :: s.parts }

def node (s : Scope) : Node := .element s.name s.parts.reverse

def finish : Scope → List Scope → List Node
  | s, [] => s.parts.reverse
  | s, outer :: rest => finish (outer.add s.node) rest

/-- The parts of a document, with the innermost element, those around it and the number of open tags at hand. -/
def gather (depth : Nat) (inner : Scope) (outer : List Scope) : List Token → List Node
  | [] => finish inner outer
  | .opening name :: rest => gather (depth + 1) ⟨name, depth, []⟩ (inner :: outer) rest
  | .empty name :: rest => gather depth (inner.add (.element name [])) outer rest
  | .text raw :: rest => gather depth (inner.add (.text raw)) outer rest
  | .fault :: rest => gather depth (inner.add .fault) outer rest
  | .closing name :: rest =>
    match outer with
    | [] => gather (depth - 1) inner [] rest
    | next :: others =>
      if inner.name = name ∧ inner.depth = depth - 1 then gather (depth - 1) (next.add inner.node) others rest
      else gather (depth - 1) inner outer rest

end Scope

/-- The parts of a document: at most one of them is an element, its root. -/
def parts (document : String) : List Node := Scope.gather 0 ⟨⟨"", ""⟩, 0, []⟩ [] (Token.scan document)

/-! ## References -/

/-- The character of a code in digits of a base; one plus sign may stand in front. -/
def codeCharacter? (base : Nat) (digit? : Char → Option Nat) (s : List Char) : Option Char := do
  let s := match s with
    | '+' :: r => r
    | r => r
  if s.isEmpty then none
  let n ← s.foldlM (fun n c => (digit? c).map (base * n + ·)) 0
  if h : n.isValidChar then some (Char.ofNatAux n h) else none

def reference? : List Char → Option Char
  | '#' :: 'x' :: s => codeCharacter? 16 Digits.hexDigit? s
  | '#' :: s => codeCharacter? 10 Digits.digit? s
  | s =>
    match String.ofList s with
    | "lt" => some '<'
    | "gt" => some '>'
    | "amp" => some '&'
    | "quot" => some '"'
    | "apos" => some '\''
    | _ => none

/-- A piece behind an ampersand: a reference, a semicolon, and plain text. -/
def resolvePiece? (piece : List Char) : Option (List Char) := do
  let (name, rest) ← Text.splitFirst? ';' piece
  return (← reference? name) :: rest

def resolve? (raw : List Char) : Option (List Char) :=
  match Text.pieces '&' raw with
  | [] => some []
  | first :: rest => do return first ++ (← rest.mapM resolvePiece?).flatten

/-! ## Looking into elements -/

/-- An element: its name and its parts. -/
structure Element where
  name : Name
  parts : List Node

namespace Element

def among : List Node → List Element
  | [] => []
  | .element name parts :: rest => ⟨name, parts⟩ :: among rest
  | _ :: rest => among rest

def root? (document : String) : Option Element := (among (Xml.parts document)).head?

def children (e : Element) : List Element := among e.parts

def named (e : Element) (base : String) : List Element := e.children.filter fun c => c.name.isPlain base

/-- The first text among some parts; another element in front of it is not allowed. -/
def firstText? : List Node → Option (List Char)
  | [] => some []
  | .text raw :: _ => resolve? raw
  | _ :: _ => none

def data? (e : Element) : Option String := (firstText? e.parts).map String.ofList

/-- The texts of all children with a name, each of which has to be readable; the last one counts. -/
def field? (e : Element) (base : String) : Option (Option String) := do
  return (← (e.named base).mapM data?).getLast?

end Element

end BucketBench.Xml
