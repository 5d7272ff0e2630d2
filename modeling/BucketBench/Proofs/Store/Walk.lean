import BucketBench.Proofs.Store.Write
import BucketBench.Store.Update

set_option autoImplicit false

namespace BucketBench

/-- What stands before the last separator is cut like any text, and what stands behind it is the last piece. -/
theorem Text.pieces_eq_of_splitLast? (separator : Char) (s : List Char) :
    pieces separator s =
      match splitLast? separator s with
      | some (parent, last) => pieces separator parent ++ [last]
      | none => [s] := by
  induction s with
  | nil => rfl
  | cons c rest ih =>
    by_cases same : c = separator
    · cases found : splitLast? separator rest <;> simp [pieces, splitLast?, same, ih, found]
    · cases found : splitLast? separator rest with
      | none => simp [pieces, splitLast?, same, ih, found]
      | some cut =>
        obtain ⟨p, ps, first⟩ := List.exists_cons_of_ne_nil (pieces_ne_nil separator cut.1)
        simp [pieces, splitLast?, same, ih, found, first]

theorem pathKeys_eq_of_splitLast? (path : String) :
    pathKeys path =
      match Text.splitLast? '.' path.toList with
      | some (parent, last) => pathKeys (String.ofList parent) ++ [String.ofList last]
      | none => [path] := by
  rw [pathKeys, Text.split, Text.pieces_eq_of_splitLast?]
  cases Text.splitLast? '.' path.toList <;> simp [pathKeys, Text.split]

namespace Document

theorem replaceAt_eq (last : String) (value : Value) (lead : List String) (d : Document) :
    replaceAt last value lead d =
      (setAt value (lead ++ [last]) d).map fun after => (after, d.at? (lead ++ [last])) := by
  induction lead generalizing d with
  | nil => rfl
  | cons key lead ih =>
    obtain ⟨next, rest, keys⟩ := List.exists_cons_of_ne_nil (List.append_ne_nil_of_right_ne_nil lead (List.cons_ne_nil last []))
    rw [List.cons_append, keys, setAt_cons, at?_cons, ← keys, replaceAt, branch]
    cases d.get? key with
    | none =>
      simp only [Option.getD_none, ih, at?_empty]
      cases setAt value (lead ++ [last]) [] <;> rfl
    | some v =>
      cases v with
      | object inner =>
        simp only [Option.getD_some, ih]
        cases setAt value (lead ++ [last]) inner <;> rfl
      | _ => rfl

theorem withdrawAt_eq (last : String) (lead : List String) (d : Document) :
    withdrawAt last lead d = (unsetAt (lead ++ [last]) d, d.at? (lead ++ [last])) := by
  induction lead generalizing d with
  | nil => rfl
  | cons key lead ih =>
    obtain ⟨next, rest, keys⟩ := List.exists_cons_of_ne_nil (List.append_ne_nil_of_right_ne_nil lead (List.cons_ne_nil last []))
    rw [List.cons_append, keys, unsetAt_cons, at?_cons, ← keys, withdrawAt]
    cases d.get? key with
    | none => rfl
    | some v =>
      cases v with
      | object inner => simp only [ih]
      | _ => rfl

theorem setPath_eq (path : String) (value : Value) (d : Document) :
    d.setPath path value =
      match d.setAt value (pathKeys path) with
      | .ok after => .ok (after, match d.at? (pathKeys path) with
        | some old => !old.same value
        | none => true)
      | .error part => .error (.notADocument (((pathKeys path).getLast?).getD "") part path) := by
  have last := List.getLast?_eq_some_getLast (pathKeys_ne_nil path)
  have whole := List.dropLast_append_getLast (pathKeys_ne_nil path)
  simp only [setPath, last, replaceAt_eq, whole, Option.getD_some]
  cases d.setAt value (pathKeys path) with
  | error part => rfl
  | ok after => cases d.at? (pathKeys path) <;> rfl

theorem unsetPath_eq (path : String) (d : Document) :
    d.unsetPath path = (d.unsetAt (pathKeys path), (d.at? (pathKeys path)).isSome) := by
  rw [unsetPath, pathKeys_eq_of_splitLast?]
  cases Text.splitLast? '.' path.toList with
  | none => rfl
  | some cut => simp only [withdrawAt_eq]

end Document

end BucketBench
