import BucketBench.Json.Reader
import BucketBench.Text.Blank

set_option autoImplicit false

/-!
# Assignments on the command line

A text `path=value` names a field and a value. The value is read as JSON when it is JSON, and is otherwise the
text as it stands. Assignments and the paths of fields to remove make up an update.
-/

namespace BucketBench.Assignment

def read? (assignment : String) : Option (String × Value) :=
  (Text.splitFirst? '=' assignment.toList).map fun (path, raw) =>
    let raw := String.ofList raw
    (String.ofList path, (Json.read? raw).getD (.string raw))

def complaint (assignment : String) : String := s!"invalid assignment '{assignment}', expected PATH=VALUE"

/-- Reads assignments from the left; fails with the first that is none. -/
def readAll : List String → Except String (List (String × Value))
  | [] => .ok []
  | a :: rest =>
    match read? a with
    | none => .error (complaint a)
    | some pair => (readAll rest).map (pair :: ·)

/-- The fields that assignments set; a later assignment to a path replaces an earlier one in its place. -/
def fields (pairs : List (String × Value)) : Document := Document.ofMembers pairs

/-- An operator with its operand, unless that is empty. -/
def operator (name : String) (operand : Document) : Document :=
  if operand.isEmpty then [] else [(name, .object operand)]

def update (assignments removals : List String) : Except String Document :=
  if assignments.isEmpty && removals.isEmpty then .error "nothing to update: pass --set or --unset"
  else
    (readAll assignments).map fun pairs =>
      operator "$set" (fields pairs) ++ operator "$unset" (fields (removals.map (·, .string "")))

end BucketBench.Assignment
