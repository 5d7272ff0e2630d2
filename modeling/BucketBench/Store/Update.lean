import BucketBench.Error
import BucketBench.Store.Path

set_option autoImplicit false

/-!
# Updates

An update document holds operators, `$set` with values by path and `$unset` with paths. `Edit.ofUpdate`
checks it as a whole and gives the edits in the order of the text; `Edit.applyAll` carries them out one after
the other and says whether any of them changed the document.
-/

namespace BucketBench

namespace Document

/-- Sets the value at a path, and says whether that changed anything. -/
def setPath (path : String) (value : Value) (d : Document) : Except StoreFault (Document × Bool) :=
  let keys := pathKeys path
  match keys.getLast? with
  | none => .ok (d, false)
  | some last =>
    match d.replaceAt last value keys.dropLast with
    | .ok (after, some old) => .ok (after, !old.same value)
    | .ok (after, none) => .ok (after, true)
    | .error part => .error (.notADocument last part path)

/-- Removes the member at a path, and says whether there was one. The path is cut at its last dot only, and what
stands before that at every dot. -/
def unsetPath (path : String) (d : Document) : Document × Bool :=
  match Text.splitLast? '.' path.toList with
  | none => (d.remove path, (d.get? path).isSome)
  | some (parent, last) =>
    let (after, old) := d.withdrawAt (String.ofList last) (pathKeys (String.ofList parent))
    (after, old.isSome)

end Document

inductive Edit where
  | set (path : String) (value : Value)
  | unset (path : String)

namespace Edit

def ofOperator (operator : String) (operand : Value) : Except StoreFault (List Edit) :=
  if operator ≠ "$set" ∧ operator ≠ "$unset" then .error (.unknownOperator operator)
  else match operand with
    | .object fields =>
      if operator = "$set" then .ok (fields.map fun (path, value) => .set path value)
      else .ok (fields.map fun (path, _) => .unset path)
    | _ => .error (.operandNotADocument operator)

def ofOperators : Document → Except StoreFault (List Edit)
  | [] => .ok []
  | (operator, operand) :: rest => do
    let edits ← ofOperator operator operand
    let more ← ofOperators rest
    return edits ++ more

def isOperator (key : String) : Bool := key.toList.head? == some '$'

/-- The edits of an update document: only operators, all of them known, each with a document. -/
def ofUpdate (update : Document) : Except StoreFault (List Edit) :=
  if update.keys.any fun key => !isOperator key then .error .onlyOperators else ofOperators update

/-- The document after one edit, and whether it changed. -/
def apply (d : Document) : Edit → Except StoreFault (Document × Bool)
  | .set path value => d.setPath path value
  | .unset path => .ok (d.unsetPath path)

/-- The document after all edits, and whether any of them changed it. -/
def applyAll : List Edit → Document → Except StoreFault (Document × Bool)
  | [], d => .ok (d, false)
  | edit :: rest, d => do
    let (d, changed) ← edit.apply d
    let (d, more) ← applyAll rest d
    return (d, changed || more)

end Edit

end BucketBench
