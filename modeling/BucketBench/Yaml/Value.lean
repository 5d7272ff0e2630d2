import BucketBench.Json.Value
import BucketBench.Yaml.Node

set_option autoImplicit false

/-!
# Values of YAML documents

A plain scalar is null, a truth value or a number when it is spelled like one, and text otherwise; a core tag
decides instead of the spelling. Aliases are expanded, which counts against a limit, and so does nesting.
-/

namespace BucketBench.Yaml

open Digits

def coreTag (name : String) : String := "tag:yaml.org,2002:" ++ name

/-- Tags of an application's own; there is no value for them. -/
def isLocalTag (tag : Option String) : Bool := tag.any fun t => t.toList.head? == some '!'

def isNullText (s : String) : Bool := s ∈ ["null", "Null", "NULL", "~"]

def readBool? (s : String) : Option Bool :=
  if s ∈ ["true", "True", "TRUE"] then some true
  else if s ∈ ["false", "False", "FALSE"] then some false
  else none

/-! ## Numbers -/

def splitSign : List Char → Option Bool × List Char
  | '-' :: r => (some true, r)
  | '+' :: r => (some false, r)
  | r => (none, r)

def isZeroLed (s : List Char) : Bool :=
  let ds := (splitSign s).2
  ds.length > 1 && ds.head? == some '0' && ds.all Char.isDigit

def digitsValue? (base : Nat) (ds : List Char) : Option Nat :=
  if ds.isEmpty || ds.any fun d => (hexDigit? d).all (base ≤ ·) then none
  else some (ds.foldl (fun n d => base * n + (hexDigit? d).getD 0) 0)

/-- A whole number: decimal, or hexadecimal, octal or binary behind its mark. -/
def readInt? (s : List Char) : Option Int := do
  let (sign, r) := splitSign s
  let n ← match r with
    | '0' :: 'x' :: ds => digitsValue? 16 ds
    | '0' :: 'o' :: ds => digitsValue? 8 ds
    | '0' :: 'b' :: ds => digitsValue? 2 ds
    | ds => if isZeroLed s then none else digitsValue? 10 ds
  return if sign == some true then -n else n

/-- A decimal number; infinite and undefined ones have no value of their own and are null. -/
def readDouble? (s : List Char) : Option Value :=
  let (sign, r) := splitSign s
  let special := String.ofList r
  if special ∈ [".inf", ".Inf", ".INF"] || (sign.isNone && special ∈ [".nan", ".NaN", ".NAN"]) then some .null
  else if r.head?.any (fun c => c == '+' || c == '-') then none
  else (Digits.readDouble? (String.ofList s)).map .double

/-- A whole number as a value: up to 64 bits it is one, up to 128 bits there is none, and beyond that it is no
whole number at all. -/
def intValue? (s : List Char) : Option (Option Value) := do
  let n ← readInt? s
  if n ∈ IntRange.bits64 then return some (.int n)
  if n ∈ IntRange.bits128 then return none
  none

/-! ## Scalars -/

def plainValue? (text : String) : Option Value :=
  let s := text.toList
  if text.isEmpty || isNullText text then some .null
  else match readBool? text with
    | some b => some (.bool b)
    | none =>
      match intValue? s with
      | some v => v
      | none =>
        if isZeroLed s then some (.string text)
        else some ((readDouble? s).getD (.string text))

def scalarValue? (tag : Option String) (isPlain : Bool) (text : String) : Option Value :=
  match tag with
  | none => if isPlain then plainValue? text else some (.string text)
  | some tag =>
    if tag = coreTag "bool" then (readBool? text).map .bool
    else if tag = coreTag "int" then (intValue? text.toList).join
    else if tag = coreTag "float" then readDouble? text.toList
    else if tag = coreTag "null" then if isNullText text then some .null else none
    else some (.string text)

/-! ## Nodes -/

def maxDepth : Nat := 128

/-- How many times an alias may be followed for each step through the document. -/
def aliasesPerStep : Nat := 100

/-- Counts the aliases that were followed, or fails. -/
abbrev Expand (α : Type) := StateT Nat Option α

def followAlias (root : Root) : Node → Expand Node
  | .alias number => do
    let count := (← get) + 1
    if aliasesPerStep * root.node.size < count then failure
    set count
    match root.anchors.node? number with
    | some n => return n
    | none => failure
  | n => return n

/-- The text of a key, whatever its tag. -/
def keyText (root : Root) (k : Node) : Expand String := do
  match ← followAlias root k with
  | .scalar _ _ text => return text
  | _ => failure

/-- The value of a node with at most `depth` containers inside each other. -/
def value (root : Root) (depth : Nat) (n : Node) : Expand Value := do
  match ← followAlias root n with
  | .scalar tag isPlain text => if isLocalTag tag then failure else (scalarValue? tag isPlain text : Option Value)
  | .sequence tag items =>
    match depth with
    | 0 => failure
    | depth + 1 =>
      if isLocalTag tag then failure
      return .array (← items.mapM fun n => value root depth n)
  | .mapping tag entries =>
    match depth with
    | 0 => failure
    | depth + 1 =>
      if isLocalTag tag then failure
      let members ← entries.mapM fun (k, v) => do
        let k ← keyText root k
        return (k, ← value root depth v)
      return .object (Document.ofMembers members)
  | .alias _ => failure

def read? (text : String) : Option Value := do
  let root ← root? text
  let (v, _) ← (value root maxDepth root.node).run 0
  return v

end BucketBench.Yaml
