import BucketBench.Json.Value
import BucketBench.Text.Blank

set_option autoImplicit false

/-!
# Places inside a document

A path is a list of keys, each but the last leading into an inner document; as text its keys are joined by
dots, and an empty text is the path of one empty key. Looking up, setting and unsetting follow the same keys;
`at?_setAt_self` says that what was set at a path is found there. Updates write by walks of their own, along the
leading keys to the parent of the member, and these also say what stood in its place: `replaceAt` and `withdrawAt`.
-/

namespace BucketBench

/-- The keys of a dotted path; there is always at least one. -/
def pathKeys (path : String) : List String := Text.split '.' path

theorem pathKeys_ne_nil (path : String) : pathKeys path ≠ [] := by
  simp [pathKeys, Text.split, Text.pieces_ne_nil]

namespace Document

def at? : (path : List String) → Document → Option Value
  | [], _ => none
  | [key], d => d.get? key
  | key :: rest, d =>
    match d.get? key with
    | some (.object inner) => at? rest inner
    | _ => none

/-- Sets the value at a path and creates missing documents on the way; fails with the key whose value is in
the way. -/
def setAt (value : Value) : (path : List String) → Document → Except String Document
  | [], d => .ok d
  | [key], d => .ok (d.insert key value)
  | key :: rest, d =>
    match d.get? key with
    | none => do return d.insert key (.object (← setAt value rest []))
    | some (.object inner) => do return d.insert key (.object (← setAt value rest inner))
    | some _ => .error key

/-- Removes the member at a path, when it is there. -/
def unsetAt : (path : List String) → Document → Document
  | [], d => d
  | [key], d => d.remove key
  | key :: rest, d =>
    match d.get? key with
    | some (.object inner) => d.insert key (.object (unsetAt rest inner))
    | _ => d

/-- Writes the member `last` of the document that the leading keys lead to; missing documents on the way are created.
Also gives what stood there. Fails with the key whose value is in the way. -/
def replaceAt (last : String) (value : Value) : (lead : List String) → Document → Except String (Document × Option Value)
  | [], d => .ok (d.insert last value, d.get? last)
  | key :: lead, d =>
    match (d.get? key).getD (.object []) with
    | .object inner => do
      let (inner, old) ← replaceAt last value lead inner
      return (d.insert key (.object inner), old)
    | _ => .error key

/-- Removes the member `last` of the document that the leading keys lead to, if they lead to one. Also gives what
stood there. -/
def withdrawAt (last : String) : (lead : List String) → Document → Document × Option Value
  | [], d => (d.remove last, d.get? last)
  | key :: lead, d =>
    match d.get? key with
    | some (.object inner) =>
      let (inner, old) := withdrawAt last lead inner
      (d.insert key (.object inner), old)
    | _ => (d, none)

@[simp] theorem at?_singleton (key : String) (d : Document) : at? [key] d = d.get? key := rfl

theorem at?_cons (key next : String) (rest : List String) (d : Document) :
    at? (key :: next :: rest) d =
      match d.get? key with
      | some (.object inner) => at? (next :: rest) inner
      | _ => none := rfl

theorem at?_setAt_self {value : Value} {path : List String} {d after : Document} (nonempty : path ≠ [])
    (h : setAt value path d = .ok after) : at? path after = some value := by
  induction path generalizing d after with
  | nil => exact absurd rfl nonempty
  | cons key rest ih =>
    cases rest with
    | nil =>
      simp only [setAt, Except.ok.injEq] at h
      subst h
      simp
    | cons next rest =>
      simp only [setAt] at h
      split at h
      · cases e : setAt value (next :: rest) [] with
        | error _ => simp [e, bind, Except.bind] at h
        | ok inner =>
          simp only [e, bind, Except.bind, pure, Except.pure, Except.ok.injEq] at h
          subst h
          simpa [at?_cons] using ih (by simp) e
      · rename_i inner _
        cases e : setAt value (next :: rest) inner with
        | error _ => simp [e, bind, Except.bind] at h
        | ok inner' =>
          simp only [e, bind, Except.bind, pure, Except.pure, Except.ok.injEq] at h
          subst h
          simpa [at?_cons] using ih (by simp) e
      · simp at h

end Document

end BucketBench
