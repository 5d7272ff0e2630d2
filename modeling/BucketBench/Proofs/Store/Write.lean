import BucketBench.Proofs.Json.Same
import BucketBench.Proofs.Store.Path

set_option autoImplicit false

/-!
# The laws of writing

Setting and unsetting walk the keys of a path in ways of their own, and reach the place that looking up reaches.
What was set is found, what was unset is not, and both leave every place alone that is neither inside the one
written nor around it. Setting fails exactly below a value that is no document.
-/

namespace BucketBench.Document

/-! ## Setting -/

/-- The document that a key leads into for writing: an empty one when there is nothing yet. -/
def branch (key : String) (d : Document) : Option Document :=
  match d.get? key with
  | none => some []
  | some (.object inner) => some inner
  | some _ => none

theorem setAt_cons (value : Value) (key next : String) (rest : List String) (d : Document) :
    setAt value (key :: next :: rest) d =
      match d.branch key with
      | some inner => (setAt value (next :: rest) inner).map fun after => d.insert key (.object after)
      | none => .error key := by
  cases h : d.get? key with
  | none => simp only [setAt, branch, h]; rfl
  | some v =>
    cases v with
    | object inner => simp only [setAt, branch, h]; rfl
    | _ => simp only [setAt, branch, h]

theorem at?_branch {key : String} {d inner : Document} {path : List String} (nonempty : path ≠ [])
    (h : d.branch key = some inner) : at? (key :: path) d = at? path inner := by
  unfold branch at h
  split at h
  · rename_i e
    cases h
    rw [at?_of_absent path e, at?_empty]
  · rename_i e
    cases h
    exact at?_of_object nonempty e
  · simp at h

theorem isWellKeyed_branch {key : String} {d inner : Document} (keyed : d.isWellKeyed = true)
    (h : d.branch key = some inner) : inner.isWellKeyed = true := by
  unfold branch at h
  split at h
  · cases h
    rfl
  · rename_i e
    cases h
    exact isWellKeyed_of_get? keyed e
  · simp at h

theorem branch_eq_none_iff (key : String) (d : Document) :
    d.branch key = none ↔ ∃ v, d.get? key = some v ∧ v.isObject = false := by
  unfold branch
  split
  · simp [*]
  · simp [*, Value.isObject]
  · rename_i v hv e
    cases v <;> simp_all [Value.isObject]

theorem exists_branch_of_setAt {value : Value} {key next : String} {rest : List String} {d after : Document}
    (h : setAt value (key :: next :: rest) d = .ok after) :
    ∃ inner written, d.branch key = some inner ∧ setAt value (next :: rest) inner = .ok written ∧
      after = d.insert key (.object written) := by
  rw [setAt_cons] at h
  split at h
  · rename_i inner e
    cases w : setAt value (next :: rest) inner with
    | error part => simp [w, Except.map] at h
    | ok written =>
      simp only [w, Except.map, Except.ok.injEq] at h
      exact ⟨inner, written, e, w, h.symm⟩
  · simp at h

/-- A write changes nothing at places that are neither inside nor around its own. -/
theorem at?_setAt_of_apart {value : Value} {path other : List String} {d after : Document} (apart : Apart path other)
    (h : setAt value path d = .ok after) : at? other after = at? other d := by
  obtain ⟨k, more, rfl⟩ := List.exists_cons_of_ne_nil apart.ne_nil_right
  induction path generalizing d after k more with
  | nil => exact absurd rfl apart.ne_nil_left
  | cons key rest ih =>
    by_cases e : key = k
    · subst e
      have below := (apart_cons_iff key rest more).1 apart
      obtain ⟨next, tail, rfl⟩ := List.exists_cons_of_ne_nil below.ne_nil_left
      obtain ⟨k', more', rfl⟩ := List.exists_cons_of_ne_nil below.ne_nil_right
      obtain ⟨inner, written, hb, hw, rfl⟩ := exists_branch_of_setAt h
      rw [at?_of_object (by simp) (get?_insert_self ..), at?_branch (by simp) hb]
      exact ih hw k' more' below
    · cases rest with
      | nil =>
        simp only [setAt, Except.ok.injEq] at h
        subst h
        exact at?_of_get?_eq more (by simp [get?_insert, e])
      | cons next tail =>
        obtain ⟨inner, written, -, -, rfl⟩ := exists_branch_of_setAt h
        exact at?_of_get?_eq more (by simp [get?_insert, e])

theorem at?_setAt_below {value : Value} {path : List String} (rest : List String) {d after : Document}
    (nonempty : path ≠ []) (h : setAt value path d = .ok after) : at? (path ++ rest) after = below rest value := by
  rw [at?_append rest nonempty, at?_setAt_self nonempty h, Option.bind_some]

theorem at?_setAt_above {value : Value} {path rest : List String} {d after : Document} (nonempty : path ≠ [])
    (more : rest ≠ []) (h : setAt value (path ++ rest) d = .ok after) : ∃ inner, at? path after = some (.object inner) :=
  exists_object_above nonempty more (at?_setAt_self (by simp [nonempty]) h)

theorem isWellKeyed_setAt {value : Value} {path : List String} {d after : Document} (keyed : d.isWellKeyed = true)
    (hv : value.isWellKeyed = true) (h : setAt value path d = .ok after) : after.isWellKeyed = true := by
  induction path generalizing d after with
  | nil =>
    simp only [setAt, Except.ok.injEq] at h
    exact h ▸ keyed
  | cons key rest ih =>
    cases rest with
    | nil =>
      simp only [setAt, Except.ok.injEq] at h
      exact h ▸ isWellKeyed_insert key keyed hv
    | cons next tail =>
      obtain ⟨inner, written, hb, hw, rfl⟩ := exists_branch_of_setAt h
      exact isWellKeyed_insert key keyed (ih (isWellKeyed_branch keyed hb) hw)

def Blocked (path : List String) (d : Document) : Prop :=
  ∃ lead v, lead <+: path ∧ lead ≠ path ∧ d.at? lead = some v ∧ v.isObject = false

theorem not_blocked_empty (path : List String) : ¬ Blocked path [] := by
  rintro ⟨lead, v, -, -, h, -⟩
  simp at h

theorem not_blocked_singleton (key : String) (d : Document) : ¬ Blocked [key] d := by
  rintro ⟨lead, v, h, ne, found, -⟩
  cases lead with
  | nil => simp [at?] at found
  | cons first more =>
    obtain ⟨rfl, hm⟩ := List.cons_prefix_cons.1 h
    exact ne (by rw [List.prefix_nil.1 hm])

/-- On the way to a longer path either its first key leads nowhere, or the way is blocked behind it. -/
theorem blocked_cons_iff (key next : String) (rest : List String) (d : Document) :
    Blocked (key :: next :: rest) d ↔ ∀ inner, d.branch key = some inner → Blocked (next :: rest) inner := by
  constructor
  · rintro ⟨lead, v, h, ne, found, hv⟩ inner hb
    cases lead with
    | nil => simp [at?] at found
    | cons first more =>
      obtain ⟨rfl, hm⟩ := List.cons_prefix_cons.1 h
      by_cases e : more = []
      · subst e
        have none : d.branch first = none := (branch_eq_none_iff first d).2 ⟨v, found, hv⟩
        rw [none] at hb
        cases hb
      · rw [at?_branch e hb] at found
        exact ⟨more, v, hm, fun e => ne (by rw [e]), found, hv⟩
  · intro h
    cases hb : d.branch key with
    | none =>
      obtain ⟨v, found, hv⟩ := (branch_eq_none_iff key d).1 hb
      exact ⟨[key], v, by simp, by simp, found, hv⟩
    | some inner =>
      obtain ⟨lead, v, hl, ne, found, hv⟩ := h inner hb
      have nonempty : lead ≠ [] := ne_nil_of_at? found
      refine ⟨key :: lead, v, List.cons_prefix_cons.2 ⟨rfl, hl⟩, by simpa using ne, ?_, hv⟩
      rw [at?_branch nonempty hb, found]

theorem setAt_fails_iff (value : Value) (path : List String) (d : Document) :
    (∃ part, setAt value path d = .error part) ↔ Blocked path d := by
  induction path generalizing d with
  | nil =>
    simp only [setAt, reduceCtorEq, exists_false, false_iff]
    rintro ⟨lead, v, h, ne, -, -⟩
    exact ne (List.prefix_nil.1 h)
  | cons key rest ih =>
    cases rest with
    | nil => simp [setAt, not_blocked_singleton]
    | cons next tail =>
      rw [setAt_cons, blocked_cons_iff]
      cases hb : d.branch key with
      | none => simp
      | some inner =>
        simp only [Option.some.injEq, forall_eq', ← ih inner]
        cases setAt value (next :: tail) inner <;> simp [Except.map]

/-! ## Unsetting -/

theorem unsetAt_cons (key next : String) (rest : List String) (d : Document) :
    unsetAt (key :: next :: rest) d =
      match d.get? key with
      | some (.object inner) => d.insert key (.object (unsetAt (next :: rest) inner))
      | _ => d := rfl

theorem at?_unsetAt_self (path : List String) {d : Document} (keyed : d.isWellKeyed = true) :
    at? path (unsetAt path d) = none := by
  induction path generalizing d with
  | nil => rfl
  | cons key rest ih =>
    cases rest with
    | nil => simp [unsetAt, get?_remove key key (nodup_keys keyed)]
    | cons next tail =>
      rw [unsetAt_cons]
      split
      · rename_i inner e
        rw [at?_of_object (by simp) (get?_insert_self ..)]
        exact ih (isWellKeyed_of_get? keyed e)
      · rename_i other
        rw [at?_cons]
        split
        · rename_i inner e
          exact absurd e (other inner)
        · rfl

theorem at?_unsetAt_of_apart {path other : List String} {d : Document} (apart : Apart path other)
    (keyed : d.isWellKeyed = true) : at? other (unsetAt path d) = at? other d := by
  obtain ⟨k, more, rfl⟩ := List.exists_cons_of_ne_nil apart.ne_nil_right
  induction path generalizing d k more with
  | nil => exact absurd rfl apart.ne_nil_left
  | cons key rest ih =>
    cases rest with
    | nil =>
      have ne : key ≠ k := by
        rintro rfl
        exact apart.1 (List.cons_prefix_cons.2 ⟨rfl, List.nil_prefix⟩)
      exact at?_of_get?_eq more (by simp [unsetAt, get?_remove key k (nodup_keys keyed), ne])
    | cons next tail =>
      rw [unsetAt_cons]
      split
      · rename_i inner found
        by_cases e : key = k
        · subst e
          have below := (apart_cons_iff key (next :: tail) more).1 apart
          obtain ⟨k', more', rfl⟩ := List.exists_cons_of_ne_nil below.ne_nil_right
          rw [at?_of_object (by simp) (get?_insert_self ..), at?_of_object (by simp) found]
          exact ih (isWellKeyed_of_get? keyed found) k' more' below
        · exact at?_of_get?_eq more (by simp [get?_insert, e])
      · rfl

theorem unsetAt_of_absent {path : List String} {d : Document} (h : at? path d = none) : unsetAt path d = d := by
  induction path generalizing d with
  | nil => rfl
  | cons key rest ih =>
    cases rest with
    | nil => exact remove_of_absent h
    | cons next tail =>
      rw [unsetAt_cons]
      rw [at?_cons] at h
      split
      · rename_i inner found
        rw [found] at h
        rw [ih h, insert_of_get? found]
      · rfl

theorem at?_unsetAt_above {path rest : List String} {d inner : Document} (more : rest ≠ [])
    (h : at? path d = some (.object inner)) : ∃ inner', at? path (unsetAt (path ++ rest) d) = some (.object inner') := by
  induction path generalizing d with
  | nil => simp [at?] at h
  | cons key tail ih =>
    cases tail with
    | nil =>
      obtain ⟨next, rest, rfl⟩ := List.exists_cons_of_ne_nil more
      have found : d.get? key = some (.object inner) := h
      rw [List.singleton_append, unsetAt_cons, found]
      exact ⟨_, get?_insert_self ..⟩
    | cons next tail =>
      rw [at?_cons] at h
      split at h
      · rename_i first found
        obtain ⟨inner', hi⟩ := ih h
        refine ⟨inner', ?_⟩
        rw [List.cons_append, List.cons_append, unsetAt_cons, found, at?_of_object (by simp) (get?_insert_self ..)]
        exact hi
      · simp at h

theorem unsetAt_of_not_object_above {path rest : List String} {d : Document} (nonempty : path ≠ []) (more : rest ≠ [])
    (h : ∀ inner, d.at? path ≠ some (.object inner)) : unsetAt (path ++ rest) d = d := by
  apply unsetAt_of_absent
  cases found : at? (path ++ rest) d with
  | none => rfl
  | some v =>
    obtain ⟨inner, hi⟩ := exists_object_above nonempty more found
    exact absurd hi (h inner)

theorem isWellKeyed_unsetAt (path : List String) {d : Document} (keyed : d.isWellKeyed = true) :
    (unsetAt path d).isWellKeyed = true := by
  induction path generalizing d with
  | nil => exact keyed
  | cons key rest ih =>
    cases rest with
    | nil => exact isWellKeyed_remove key keyed
    | cons next tail =>
      rw [unsetAt_cons]
      split
      · rename_i inner found
        exact isWellKeyed_insert key keyed (ih (isWellKeyed_of_get? keyed found))
      · exact keyed

/-! ## Obstacles -/

theorem isObject_of_some {inner : Document} {v : Value} (h : some (Value.object inner) = some v) : v.isObject = true := by
  cases h
  rfl

/-- Wherever a document has a value that is no document, another one has such a value too. -/
def Freer (e d : Document) : Prop :=
  ∀ path v, e.at? path = some v → v.isObject = false → ∃ w, d.at? path = some w ∧ w.isObject = false

theorem not_blocked_of_freer {path : List String} {e d : Document} (free : Freer e d) (h : ¬ Blocked path d) :
    ¬ Blocked path e := by
  rintro ⟨lead, v, hl, ne, found, hv⟩
  obtain ⟨w, found', hw⟩ := free lead v found hv
  exact h ⟨lead, w, hl, ne, found', hw⟩

theorem freer_setAt {value : Value} {path : List String} {e d after : Document} (free : Freer e d)
    (nonempty : path ≠ []) (h : setAt value path d = .ok after) :
    ∃ after', setAt value path e = .ok after' ∧ Freer after' after := by
  have clear : ¬ Blocked path d := by
    rw [← setAt_fails_iff value]
    rintro ⟨part, fails⟩
    rw [h] at fails
    cases fails
  cases he : setAt value path e with
  | error part => exact absurd ((setAt_fails_iff value path e).1 ⟨part, he⟩) (not_blocked_of_freer free clear)
  | ok after' =>
    refine ⟨after', rfl, ?_⟩
    intro other v found hv
    rcases inside_or_around_or_apart path other with ⟨rest, rfl⟩ | ⟨rest, more, rfl⟩ | apart
    · -- both hold the value that was set
      rw [at?_setAt_below rest nonempty he] at found
      exact ⟨v, (at?_setAt_below rest nonempty h).trans found, hv⟩
    · obtain ⟨inner, hi⟩ := at?_setAt_above (ne_nil_of_at? found) more he
      rw [hi] at found
      exact absurd (isObject_of_some found) (by simp [hv])
    · rw [at?_setAt_of_apart apart he] at found
      obtain ⟨w, found', hw⟩ := free other v found hv
      exact ⟨w, (at?_setAt_of_apart apart h).trans found', hw⟩

theorem freer_unsetAt {e d : Document} (free : Freer e d) (path : List String) (nonempty : path ≠ [])
    (he : e.isWellKeyed = true) (hd : d.isWellKeyed = true) : Freer (unsetAt path e) (unsetAt path d) := by
  intro other v found hv
  rcases inside_or_around_or_apart path other with ⟨rest, rfl⟩ | ⟨rest, more, rfl⟩ | apart
  · rw [at?_append rest nonempty, at?_unsetAt_self path he] at found
    cases found
  · -- a document above the path stays one; below anything else there is nothing to remove
    have noDocument : ∀ inner, e.at? other ≠ some (.object inner) := by
      intro inner h
      obtain ⟨inner', hi⟩ := at?_unsetAt_above more h
      rw [hi] at found
      exact absurd (isObject_of_some found) (by simp [hv])
    have nonempty' := ne_nil_of_at? found
    rw [unsetAt_of_not_object_above nonempty' more noDocument] at found
    obtain ⟨w, found', hw⟩ := free other v found hv
    have noDocument' : ∀ inner, d.at? other ≠ some (.object inner) := by
      intro inner h
      exact absurd (isObject_of_some (h.symm.trans found')) (by simp [hw])
    refine ⟨w, ?_, hw⟩
    rw [unsetAt_of_not_object_above nonempty' more noDocument', found']
  · rw [at?_unsetAt_of_apart apart he] at found
    obtain ⟨w, found', hw⟩ := free other v found hv
    exact ⟨w, (at?_unsetAt_of_apart apart hd).trans found', hw⟩

/-- A chain of documents with nothing else in it is freer than any document. -/
theorem freer_of_setAt_empty {path : List String} {chain : Document} (nonempty : path ≠ [])
    (h : setAt (.object []) path [] = .ok chain) (d : Document) : Freer chain d := by
  intro other v found hv
  exfalso
  rcases inside_or_around_or_apart path other with ⟨rest, rfl⟩ | ⟨rest, more, rfl⟩ | apart
  · rw [at?_setAt_below rest nonempty h] at found
    cases rest with
    | nil => exact absurd (isObject_of_some found) (by simp [hv])
    | cons next tail => simp [below, Value.asObject?] at found
  · obtain ⟨inner, hi⟩ := at?_setAt_above (ne_nil_of_at? found) more h
    rw [hi] at found
    exact absurd (isObject_of_some found) (by simp [hv])
  · rw [at?_setAt_of_apart apart h, at?_empty] at found
    cases found

/-! ## Writing what is there already -/

theorem agree_at?_of_same {path : List String} {d e : Document} (hd : d.isWellKeyed = true) (he : e.isWellKeyed = true)
    (h : (Value.object d).same (.object e) = true) : Agree (d.at? path) (e.at? path) := by
  have keywise := (Value.same_object_iff (nodup_keys hd) (nodup_keys he)).1 h
  induction path generalizing d e with
  | nil => exact Option.Rel.none
  | cons key rest ih =>
    cases rest with
    | nil => exact keywise key
    | cons next tail =>
      rw [at?_cons, at?_cons]
      have first := keywise key
      cases hv : d.get? key with
      | none =>
        rw [first.none_iff.1 hv]
        exact Option.Rel.none
      | some v =>
        obtain ⟨w, hw⟩ := first.exists_some hv
        have same := first.same hv hw
        have keyedV := isWellKeyed_of_get? hd hv
        have keyedW := isWellKeyed_of_get? he hw
        rw [hw]
        cases v with
        | object inner =>
          cases w with
          | object inner' =>
            have keywise' := (Value.same_object_iff (nodup_keys keyedV) (nodup_keys keyedW)).1 same
            exact ih keyedV keyedW same keywise'
          | _ => simp [Value.same] at same
        | _ =>
          cases w with
          | object inner' => simp [Value.same] at same
          | _ => exact Option.Rel.none

theorem same_insert {key : String} {value old : Value} {d : Document} (keyed : d.isWellKeyed = true)
    (found : d.get? key = some old) (h : old.same value = true) :
    (Value.object d).same (.object (d.insert key value)) = true := by
  rw [Value.same_object_iff (nodup_keys keyed) (nodup_keys_insert key value (nodup_keys keyed))]
  intro other
  rw [get?_insert]
  split
  · rename_i e
    rw [← e, found]
    exact Option.Rel.some h
  · cases hv : d.get? other with
    | none => exact Option.Rel.none
    | some v => exact Option.Rel.some (Value.same_refl (isWellKeyed_of_get? keyed hv))

theorem same_setAt {value old : Value} {path : List String} {d after : Document} (keyed : d.isWellKeyed = true)
    (found : d.at? path = some old) (h : old.same value = true) (written : setAt value path d = .ok after) :
    (Value.object d).same (.object after) = true := by
  induction path generalizing d after with
  | nil => simp [at?] at found
  | cons key rest ih =>
    cases rest with
    | nil =>
      simp only [setAt, Except.ok.injEq] at written
      subst written
      exact same_insert keyed found h
    | cons next tail =>
      obtain ⟨inner, inner', hb, hw, rfl⟩ := exists_branch_of_setAt written
      have further : inner.at? (next :: tail) = some old := by
        rw [← at?_branch (List.cons_ne_nil next tail) hb]
        exact found
      -- the key leads into a document, or nothing would be found below it
      have there : d.get? key = some (.object inner) := by
        unfold branch at hb
        split at hb
        · cases hb
          simp at further
        · rename_i e
          cases hb
          exact e
        · cases hb
      exact same_insert keyed there (ih (isWellKeyed_branch keyed hb) further hw)

end BucketBench.Document
