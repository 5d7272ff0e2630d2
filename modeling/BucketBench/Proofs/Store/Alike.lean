import BucketBench.Proofs.Json.Alike
import BucketBench.Proofs.Store.Update

set_option autoImplicit false

namespace BucketBench

open List (Forall₂)
open Edit (listing)
open Value (Alike)

/-- Two outcomes of one kind: results in a relation, or two errors of whatever sort. -/
inductive Likewise {ε ε' α β : Type} (R : α → β → Prop) : Except ε α → Except ε' β → Prop where
  | ok {a : α} {b : β} (h : R a b) : Likewise R (.ok a) (.ok b)
  | error (e : ε) (e' : ε') : Likewise R (.error e) (.error e')

namespace Likewise

variable {ε ε' α α' β β' : Type} {R : α → α' → Prop} {S : β → β' → Prop} {x : Except ε α} {y : Except ε' α'}

theorem map {f : α → β} {g : α' → β'} (h : Likewise R x y) (hf : ∀ a b, R a b → S (f a) (g b)) :
    Likewise S (x.map f) (y.map g) := by
  cases h with
  | ok h => exact .ok (hf _ _ h)
  | error e e' => exact .error e e'

theorem bind {f : α → Except ε β} {g : α' → Except ε' β'} (h : Likewise R x y)
    (hf : ∀ a b, R a b → Likewise S (f a) (g b)) : Likewise S (x >>= f) (y >>= g) := by
  cases h with
  | ok h => exact hf _ _ h
  | error e e' => exact .error e e'

theorem trans_eq {ε'' : Type} {z : Except ε'' α'} (h : Likewise R x y) (k : Likewise Eq y z) : Likewise R x z := by
  cases k with
  | ok same =>
    cases h with
    | ok h => exact .ok (same ▸ h)
  | error =>
    cases h with
    | error e => exact .error e _

end Likewise

namespace Document

/-- Documents that cannot be told apart. -/
abbrev Alike (d e : Document) : Prop := (Value.object d).Alike (.object e)

variable {d e : Document}

/-! ## Places -/

theorem alike_at? (h : d.Alike e) (path : List String) : FindAlike (d.at? path) (e.at? path) :=
  .of_agree (agree_at?_of_same h.left h.right h.same) (fun _ => isWellKeyed_at? h.left) fun _ => isWellKeyed_at? h.right

theorem alike_below {v w : Value} (h : v.Alike w) (path : List String) : FindAlike (below path v) (below path w) := by
  cases path with
  | nil => exact .some h
  | cons key rest =>
    obtain ⟨d, e, rfl, rfl⟩ | ⟨other, other'⟩ := h.objects
    · exact alike_at? h (key :: rest)
    · have nothing : ∀ {u : Value}, u.isObject = false → below (key :: rest) u = none := by
        intro u other
        cases u <;> simp_all [below, Value.asObject?, Value.isObject]
      rw [nothing other, nothing other']
      exact .none

theorem findAlike_append {path : List String} (nonempty : path ≠ []) (rest : List String)
    (h : FindAlike (d.at? path) (e.at? path)) : FindAlike (d.at? (path ++ rest)) (e.at? (path ++ rest)) := by
  rw [at?_append rest nonempty, at?_append rest nonempty]
  generalize d.at? path = a, e.at? path = b at h
  cases h with
  | none => exact .none
  | some alike => exact alike_below alike rest

theorem alike_branch (h : d.Alike e) (key : String) : Option.Rel Document.Alike (d.branch key) (e.branch key) := by
  have find := alike_get? h key
  cases hd : d.get? key with
  | none =>
    rw [branch, branch, hd, find.eq_none hd]
    exact .some (.refl rfl)
  | some v =>
    obtain ⟨w, he, alike⟩ := find.exists_some hd
    obtain ⟨inner, inner', rfl, rfl⟩ | ⟨other, other'⟩ := alike.objects
    · rw [branch, branch, hd, he]
      exact .some alike
    · rw [(branch_eq_none_iff key d).2 ⟨v, hd, other⟩, (branch_eq_none_iff key e).2 ⟨w, he, other'⟩]
      exact .none

theorem alike_setAt {value : Value} (keyed : value.isWellKeyed = true) (h : d.Alike e) (path : List String) :
    Likewise Document.Alike (setAt value path d) (setAt value path e) := by
  induction path generalizing d e with
  | nil => exact .ok h
  | cons key rest ih =>
    cases rest with
    | nil => exact .ok (alike_insert h key (.refl keyed))
    | cons next tail =>
      have inner := alike_branch h key
      rw [setAt_cons, setAt_cons]
      generalize d.branch key = a, e.branch key = b at inner
      cases inner with
      | none => exact .error key key
      | some alike => exact (ih alike).map fun _ _ => alike_insert h key

theorem alike_unsetAt (h : d.Alike e) (path : List String) : (unsetAt path d).Alike (unsetAt path e) := by
  induction path generalizing d e with
  | nil => exact h
  | cons key rest ih =>
    cases rest with
    | nil => exact alike_remove h key
    | cons next tail =>
      have find := alike_get? h key
      cases hd : d.get? key with
      | none => rwa [unsetAt_of_absent (at?_of_absent _ hd), unsetAt_of_absent (at?_of_absent _ (find.eq_none hd))]
      | some v =>
        obtain ⟨w, he, alike⟩ := find.exists_some hd
        obtain ⟨inner, inner', rfl, rfl⟩ | ⟨other, other'⟩ := alike.objects
        · rw [unsetAt_cons, unsetAt_cons, hd, he]
          exact alike_insert h key (ih alike)
        · have fixed : ∀ {f : Document} {u : Value}, f.get? key = some u → u.isObject = false →
              unsetAt (key :: next :: tail) f = f := by
            intro f u found other
            rw [unsetAt_cons, found]
            cases u <;> simp_all [Value.isObject]
          rwa [fixed hd other, fixed he other']

/-! ## Filters -/

theorem meets_of_not_array {v : Value} (h : v.isArray = false) (expected : Value) :
    meets (some v) expected = v.same expected := by
  cases v <;> simp_all [meets, Value.isArray]

theorem meets_congr {a b : Option Value} {expected : Value} (keyed : expected.isWellKeyed = true) (h : FindAlike a b) :
    meets a expected = meets b expected := by
  have itself : expected.Alike expected := .refl keyed
  cases h with
  | none => rfl
  | some alike =>
    obtain ⟨items, others, rfl, rfl⟩ | ⟨single, single'⟩ := alike.arrays
    · simp only [meets, alike.same_congr itself, Value.alike_isIn itself (Value.alike_array_iff.1 alike)]
    · rw [meets_of_not_array single, meets_of_not_array single', alike.same_congr itself]

theorem matchesFilter_congr {filter : Document} (keyed : filter.isWellKeyed = true) (h : d.Alike e) :
    matchesFilter filter d = matchesFilter filter e := by
  have each := ((isWellKeyed_iff filter).1 keyed).2
  rw [matchesFilter, matchesFilter, Bool.eq_iff_iff, List.all_eq_true, List.all_eq_true]
  refine forall₂_congr fun m hm => ?_
  show meets (d.at? (pathKeys m.1)) m.2 = true ↔ meets (e.at? (pathKeys m.1)) m.2 = true
  rw [meets_congr (each m hm) (alike_at? h _)]

end Document

/-! ## Edits -/

namespace Edit

variable {d e : Document}

abbrev CopiesAlike (p q : Document × Bool) : Prop := p.1.Alike q.1 ∧ p.2 = q.2

theorem alike_apply {edit : Edit} (keyed : edit.isWellKeyed = true) (h : d.Alike e) :
    Likewise CopiesAlike (apply d edit) (apply e edit) := by
  cases edit with
  | unset path =>
    rw [apply_unset, apply_unset]
    exact .ok ⟨Document.alike_unsetAt h _, (Document.alike_at? h _).isSome_eq⟩
  | set path value =>
    have written : Likewise Document.Alike (d.setAt value (pathKeys path)) (e.setAt value (pathKeys path)) :=
      Document.alike_setAt keyed h _
    have find := Document.alike_at? h (pathKeys path)
    rw [apply_set, apply_set]
    generalize d.setAt value (pathKeys path) = x, e.setAt value (pathKeys path) = y at written
    cases written with
    | error => exact .error _ _
    | ok alike =>
      refine .ok ⟨alike, ?_⟩
      generalize d.at? (pathKeys path) = a, e.at? (pathKeys path) = b at find
      cases find with
      | none => rfl
      | some old => simp only [old.same_congr (.refl keyed)]

theorem alike_applyAll {edits : List Edit} (keyed : ∀ e ∈ edits, e.isWellKeyed = true) (h : d.Alike e) :
    Likewise CopiesAlike (applyAll edits d) (applyAll edits e) := by
  induction edits generalizing d e with
  | nil => exact .ok ⟨h, rfl⟩
  | cons edit rest ih =>
    have later : ∀ e ∈ rest, e.isWellKeyed = true := fun e he => keyed e (List.mem_cons_of_mem _ he)
    refine (alike_apply (keyed edit List.mem_cons_self) h).bind ?_
    rintro ⟨middle, first⟩ ⟨middle', first'⟩ ⟨alike, rfl⟩
    refine (ih later alike).bind ?_
    rintro ⟨after, more⟩ ⟨after', more'⟩ ⟨alike', rfl⟩
    exact .ok ⟨alike', rfl⟩

end Edit

namespace Collection

variable {filter : Document} {edits : List Edit} {ds es : List Document}

abbrev AllAlike (ds es : List Document) : Prop := Forall₂ Document.Alike ds es

abbrev PlansAlike (p q : UpdateSummary × List (Nat × Document)) : Prop :=
  p.1 = q.1 ∧ Forall₂ (fun a b => a.1 = b.1 ∧ a.2.Alike b.2) p.2 q.2

/-- Two runs of edits that make alike copies of one document after the other make alike plans. -/
theorem likewise_prepare {edits' : List Edit}
    (h : Forall₂ (fun d e => Document.matchesFilter filter d = Document.matchesFilter filter e ∧
      Likewise Edit.CopiesAlike (Edit.applyAll edits d) (Edit.applyAll edits' e)) ds es) (place : Nat) :
    Likewise PlansAlike (prepare filter edits place ds) (prepare filter edits' place es) := by
  induction h generalizing place with
  | nil => exact .ok ⟨rfl, .nil⟩
  | @cons d e ds es first _ ih =>
    rw [prepare, prepare, first.1]
    split
    · refine first.2.bind ?_
      rintro ⟨after, changed⟩ ⟨after', changed'⟩ ⟨copy, rfl⟩
      refine (ih (place + 1)).bind ?_
      rintro ⟨summary, copies⟩ ⟨summary', copies'⟩ ⟨rfl, more⟩
      cases changed with
      | true => exact .ok ⟨rfl, .cons ⟨rfl, copy⟩ more⟩
      | false => exact .ok ⟨rfl, more⟩
    · exact ih (place + 1)

theorem alike_prepare (keyed : filter.isWellKeyed = true) (hv : ∀ e ∈ edits, e.isWellKeyed = true)
    (h : AllAlike ds es) (place : Nat) :
    Likewise PlansAlike (prepare filter edits place ds) (prepare filter edits place es) :=
  likewise_prepare (h.imp fun _ _ alike => ⟨Document.matchesFilter_congr keyed alike, Edit.alike_applyAll hv alike⟩) place

theorem alike_set {d e : Document} (h : AllAlike ds es) (place : Nat) (alike : d.Alike e) :
    AllAlike (ds.set place d) (es.set place e) := by
  induction h generalizing place with
  | nil => exact .nil
  | cons first rest ih =>
    cases place with
    | zero => exact .cons alike rest
    | succ place => exact .cons first (ih place)

theorem alike_commit {copies copies' : List (Nat × Document)}
    (plan : Forall₂ (fun a b => a.1 = b.1 ∧ a.2.Alike b.2) copies copies') (h : AllAlike ds es) :
    AllAlike (commit copies ds) (commit copies' es) := by
  induction plan generalizing ds es with
  | nil => exact h
  | @cons a b copies copies' first _ ih =>
    obtain ⟨place, d⟩ := a
    obtain ⟨place', e⟩ := b
    obtain ⟨rfl, alike⟩ : place = place' ∧ d.Alike e := first
    exact ih (alike_set h place alike)

variable {c c' : Collection}

/-- Updates with alike plans come to the same count and leave alike documents. -/
theorem alike_updateMany_of_plans {update update' : Document} (known : Edit.Acceptable update ↔ Edit.Acceptable update')
    (h : AllAlike c.documents c'.documents)
    (plans : Likewise PlansAlike (prepare filter (listing update) 0 c.documents)
      (prepare filter (listing update') 0 c'.documents)) :
    Likewise Eq ((updateMany filter update).run c).1 ((updateMany filter update').run c').1 ∧
      AllAlike ((updateMany filter update).run c).2.documents ((updateMany filter update').run c').2.documents := by
  rw [run_updateMany, run_updateMany]
  by_cases acceptable : Edit.Acceptable update
  · have edits := (Edit.ofUpdate_eq_ok_iff update _).2 ⟨acceptable, rfl⟩
    have edits' := (Edit.ofUpdate_eq_ok_iff update' _).2 ⟨known.1 acceptable, rfl⟩
    rw [edits, edits']
    simp only
    generalize prepare filter (listing update) 0 c.documents = x, prepare filter (listing update') 0 c'.documents = y
      at plans
    cases plans with
    | error fault fault' => exact ⟨.error fault fault', h⟩
    | ok plan =>
      obtain ⟨counts, copies⟩ := plan
      exact ⟨.ok counts, alike_commit copies h⟩
  · obtain ⟨fault, refused⟩ := Edit.ofUpdate_of_not_acceptable acceptable
    obtain ⟨fault', refused'⟩ := Edit.ofUpdate_of_not_acceptable (mt known.2 acceptable)
    rw [refused, refused']
    exact ⟨.error fault fault', h⟩

theorem alike_updateMany {update : Document} (keyed : filter.isWellKeyed = true) (updateKeyed : update.isWellKeyed = true)
    (h : AllAlike c.documents c'.documents) :
    Likewise Eq ((updateMany filter update).run c).1 ((updateMany filter update).run c').1 ∧
      AllAlike ((updateMany filter update).run c).2.documents ((updateMany filter update).run c').2.documents :=
  alike_updateMany_of_plans Iff.rfl h
    (alike_prepare keyed (fun _ he => Edit.isWellKeyed_of_mem_listing updateKeyed he) h 0)

/-! ## Questions -/

theorem alike_find (keyed : filter.isWellKeyed = true) (h : AllAlike c.documents c'.documents) :
    AllAlike (c.find filter) (c'.find filter) := by
  refine List.rel_filter ?_ h
  intro d e alike
  show Document.matchesFilter filter d = true ↔ Document.matchesFilter filter e = true
  rw [Document.matchesFilter_congr keyed alike]

theorem valuesAt_of_not_array {d : Document} {path : List String} {v : Value} (found : d.at? path = some v)
    (single : v.isArray = false) : valuesAt path d = [v] := by
  rw [valuesAt, found]
  cases v <;> simp_all [Value.isArray]

theorem alike_valuesAt {d e : Document} (h : d.Alike e) (path : List String) :
    Forall₂ Alike (valuesAt path d) (valuesAt path e) := by
  have find := Document.alike_at? h path
  cases hd : d.at? path with
  | none =>
    rw [valuesAt, valuesAt, hd, find.eq_none hd]
    exact .nil
  | some v =>
    obtain ⟨w, he, alike⟩ := find.exists_some hd
    obtain ⟨items, others, rfl, rfl⟩ | ⟨single, single'⟩ := alike.arrays
    · rw [valuesAt, valuesAt, hd, he]
      exact Value.alike_array_iff.1 alike
    · rw [valuesAt_of_not_array hd single, valuesAt_of_not_array he single']
      exact .cons alike .nil

theorem alike_addNew {seen seen' : List Value} {v w : Value} (h : Forall₂ Alike seen seen') (alike : v.Alike w) :
    Forall₂ Alike (addNew seen v) (addNew seen' w) := by
  rw [addNew, addNew, Value.alike_isIn alike h]
  split
  · exact h
  · exact List.rel_append h (.cons alike .nil)

theorem alike_distinct (keyed : filter.isWellKeyed = true) (path : String) (h : AllAlike c.documents c'.documents) :
    Forall₂ Alike (c.distinct path filter) (c'.distinct path filter) := by
  have values : Forall₂ Alike ((c.find filter).flatMap (valuesAt (pathKeys path)))
      ((c'.find filter).flatMap (valuesAt (pathKeys path))) :=
    List.rel_flatMap (alike_find keyed h) fun _ _ alike => alike_valuesAt alike _
  refine List.rel_foldl ?_ .nil values
  intro _ _ seen _ _ alike
  exact alike_addNew seen alike

end Collection

end BucketBench
