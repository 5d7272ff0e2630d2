import BucketBench.Proofs.Json.WellKeyed
import BucketBench.Store.Path

set_option autoImplicit false

namespace BucketBench

namespace Text

theorem pieces_append (separator : Char) (a b : List Char) :
    pieces separator (a ++ separator :: b) = pieces separator a ++ pieces separator b := by
  induction a with
  | nil => simp [pieces]
  | cons c a ih =>
    by_cases h : c = separator
    · simp [pieces, h, ih]
    · obtain ⟨p, ps, e⟩ := List.exists_cons_of_ne_nil (pieces_ne_nil separator a)
      simp [pieces, h, ih, e]

/-- Where the pieces fall into two lists, the text falls apart at a separator. -/
theorem exists_append_of_pieces {separator : Char} {s : List Char} {first second : List (List Char)}
    (hf : first ≠ []) (hs : second ≠ []) (h : pieces separator s = first ++ second) :
    ∃ a b, s = a ++ separator :: b ∧ pieces separator a = first ∧ pieces separator b = second := by
  induction s generalizing first with
  | nil =>
    have one : (first ++ second).length = 1 := by rw [← h]; rfl
    have := List.length_pos_of_ne_nil hf
    have := List.length_pos_of_ne_nil hs
    rw [List.length_append] at one
    omega
  | cons c rest ih =>
    obtain ⟨f, fs, rfl⟩ := List.exists_cons_of_ne_nil hf
    by_cases e : c = separator
    · subst e
      simp only [pieces, if_true, List.cons_append, List.cons.injEq] at h
      obtain ⟨rfl, h⟩ := h
      cases fs with
      | nil => exact ⟨[], rest, by simp, rfl, h⟩
      | cons g gs =>
        obtain ⟨a, b, rfl, ha, hb⟩ := ih (List.cons_ne_nil g gs) h
        exact ⟨c :: a, b, rfl, by simp [pieces, ha], hb⟩
    · obtain ⟨p, ps, hp⟩ := List.exists_cons_of_ne_nil (pieces_ne_nil separator rest)
      simp only [pieces, if_neg e, hp, List.cons_append, List.cons.injEq] at h
      obtain ⟨rfl, rfl⟩ := h
      obtain ⟨a, b, rfl, ha, hb⟩ := ih (List.cons_ne_nil p fs) hp
      exact ⟨c :: a, b, rfl, by simp [pieces, e, ha], hb⟩

end Text

theorem pathKeys_append (lead rest : String) : pathKeys (lead ++ "." ++ rest) = pathKeys lead ++ pathKeys rest := by
  have chars : (lead ++ "." ++ rest).toList = lead.toList ++ '.' :: rest.toList := by simp
  simp only [pathKeys, Text.split, chars, Text.pieces_append, List.map_append]

theorem map_ofList_injective : Function.Injective (List.map String.ofList) :=
  List.map_injective_iff.2 fun a b h => by simpa using congrArg String.toList h

theorem pathKeys_injective : Function.Injective pathKeys := by
  intro p q h
  have pieces : Text.pieces '.' p.toList = Text.pieces '.' q.toList := map_ofList_injective h
  have chars : p.toList = q.toList := by
    rw [← Text.intercalate_pieces '.' p.toList, pieces, Text.intercalate_pieces]
  exact String.toList_inj.1 chars

def DottedPrefix (lead path : String) : Prop := ∃ rest, path = lead ++ "." ++ rest

def Incomparable (p q : String) : Prop := p ≠ q ∧ ¬ DottedPrefix p q ∧ ¬ DottedPrefix q p

def Apart (p q : List String) : Prop := ¬ p <+: q ∧ ¬ q <+: p

theorem exists_dottedPrefix {keys : List String} {path : String} (nonempty : keys ≠ [])
    (h : keys <+: pathKeys path) (proper : keys ≠ pathKeys path) :
    ∃ lead, DottedPrefix lead path ∧ pathKeys lead = keys := by
  obtain ⟨rest, h⟩ := h
  have hr : rest ≠ [] := by
    rintro rfl
    exact proper (by simpa using h)
  obtain ⟨first, second, e, rfl, rfl⟩ := List.map_eq_append_iff.1 h.symm
  obtain ⟨a, b, hs, ha, hb⟩ := Text.exists_append_of_pieces (by simpa using nonempty) (by simpa using hr) e
  refine ⟨String.ofList a, ⟨String.ofList b, ?_⟩, ?_⟩
  · apply String.toList_inj.1
    simpa using hs
  · simp only [pathKeys, Text.split, String.toList_ofList, ha]

theorem dottedPrefix_iff (lead path : String) :
    DottedPrefix lead path ↔ pathKeys lead <+: pathKeys path ∧ lead ≠ path := by
  constructor
  · rintro ⟨rest, rfl⟩
    refine ⟨⟨pathKeys rest, (pathKeys_append lead rest).symm⟩, ?_⟩
    intro h
    have length := congrArg (List.length ∘ pathKeys) h
    have := List.length_pos_of_ne_nil (pathKeys_ne_nil rest)
    simp only [Function.comp_apply, pathKeys_append, List.length_append] at length
    omega
  · rintro ⟨h, ne⟩
    obtain ⟨found, dotted, e⟩ := exists_dottedPrefix (pathKeys_ne_nil lead) h fun e => ne (pathKeys_injective e)
    rwa [pathKeys_injective e] at dotted

instance (lead path : String) : Decidable (DottedPrefix lead path) :=
  decidable_of_iff _ (dottedPrefix_iff lead path).symm

instance (p q : String) : Decidable (Incomparable p q) := inferInstanceAs (Decidable (_ ∧ _))

theorem Incomparable.symm {p q : String} (h : Incomparable p q) : Incomparable q p := ⟨h.1.symm, h.2.2, h.2.1⟩

theorem incomparable_iff (p q : String) : Incomparable p q ↔ Apart (pathKeys p) (pathKeys q) := by
  simp only [Incomparable, dottedPrefix_iff, Apart]
  constructor
  · rintro ⟨ne, hp, hq⟩
    exact ⟨fun h => hp ⟨h, ne⟩, fun h => hq ⟨h, ne.symm⟩⟩
  · rintro ⟨hp, hq⟩
    refine ⟨?_, fun h => hp h.1, fun h => hq h.1⟩
    rintro rfl
    exact hp List.prefix_rfl

def Within (field path : String) : Prop := path = field ∨ DottedPrefix field path

instance (field path : String) : Decidable (Within field path) := inferInstanceAs (Decidable (_ ∨ _))

theorem within_iff {field : String} (single : pathKeys field = [field]) (path : String) :
    Within field path ↔ ∃ rest, pathKeys path = field :: rest := by
  unfold Within
  rw [dottedPrefix_iff, single]
  constructor
  · rintro (rfl | ⟨⟨rest, h⟩, -⟩)
    · exact ⟨[], single⟩
    · exact ⟨rest, h.symm⟩
  · rintro ⟨rest, h⟩
    by_cases e : path = field
    · exact Or.inl e
    · exact Or.inr ⟨⟨rest, h.symm⟩, fun e' => e e'.symm⟩

theorem incomparable_of_within {field p q : String} (single : pathKeys field = [field]) (hp : Within field p)
    (hq : ¬ Within field q) : Incomparable q p := by
  obtain ⟨rest, hp⟩ := (within_iff single p).1 hp
  obtain ⟨key, more, h⟩ := List.exists_cons_of_ne_nil (pathKeys_ne_nil q)
  have ne : key ≠ field := by
    rintro rfl
    exact hq ((within_iff single q).2 ⟨more, h⟩)
  rw [incomparable_iff, hp, h]
  refine ⟨fun front => ?_, fun front => ?_⟩
  · exact ne (List.cons_prefix_cons.1 front).1
  · exact ne (List.cons_prefix_cons.1 front).1.symm

theorem apart_cons_iff (key : String) (p q : List String) : Apart (key :: p) (key :: q) ↔ Apart p q := by
  simp [Apart, List.cons_prefix_cons]

/-- One place is inside another one, properly around it, or apart from it. -/
theorem inside_or_around_or_apart (path other : List String) :
    (∃ rest, other = path ++ rest) ∨ (∃ rest, rest ≠ [] ∧ path = other ++ rest) ∨ Apart path other := by
  by_cases inside : path <+: other
  · obtain ⟨rest, rfl⟩ := inside
    exact Or.inl ⟨rest, rfl⟩
  · by_cases around : other <+: path
    · obtain ⟨rest, rfl⟩ := around
      have more : rest ≠ [] := by
        rintro rfl
        exact inside (by simp)
      exact Or.inr (Or.inl ⟨rest, more, rfl⟩)
    · exact Or.inr (Or.inr ⟨inside, around⟩)

theorem Apart.ne_nil_left {p q : List String} (h : Apart p q) : p ≠ [] := by
  rintro rfl
  exact h.1 List.nil_prefix

theorem Apart.ne_nil_right {p q : List String} (h : Apart p q) : q ≠ [] := by
  rintro rfl
  exact h.2 List.nil_prefix

namespace Document

@[simp] theorem at?_empty (path : List String) : at? path [] = none := by
  rcases path with _ | ⟨key, _ | ⟨next, rest⟩⟩ <;> rfl

theorem ne_nil_of_at? {path : List String} {d : Document} {v : Value} (h : at? path d = some v) : path ≠ [] := by
  rintro rfl
  simp [at?] at h

theorem at?_of_object {key : String} {d inner : Document} {path : List String} (nonempty : path ≠ [])
    (h : d.get? key = some (.object inner)) : at? (key :: path) d = at? path inner := by
  cases path with
  | nil => exact absurd rfl nonempty
  | cons next rest => rw [at?_cons, h]

theorem at?_of_absent {key : String} {d : Document} (path : List String) (h : d.get? key = none) :
    at? (key :: path) d = none := by
  cases path with
  | nil => exact h
  | cons next rest => rw [at?_cons, h]

theorem at?_of_get?_eq {key : String} {d e : Document} (path : List String) (h : d.get? key = e.get? key) :
    at? (key :: path) d = at? (key :: path) e := by
  cases path with
  | nil => exact h
  | cons next rest => rw [at?_cons, at?_cons, h]

/-- What stands at a path inside a value; the value itself at the empty one. -/
def below (path : List String) (v : Value) : Option Value := if path = [] then some v else v.asObject?.bind (at? path)

theorem isObject_of_below {path : List String} {v w : Value} (nonempty : path ≠ []) (h : below path v = some w) :
    ∃ inner, v = .object inner := by
  cases v with
  | object inner => exact ⟨inner, rfl⟩
  | _ => simp [below, nonempty, Value.asObject?] at h

theorem at?_append {path : List String} (rest : List String) {d : Document} (nonempty : path ≠ []) :
    at? (path ++ rest) d = (at? path d).bind (below rest) := by
  induction path generalizing d with
  | nil => exact absurd rfl nonempty
  | cons key more ih =>
    cases more with
    | nil =>
      cases rest with
      | nil =>
        rw [List.append_nil, at?_singleton]
        cases d.get? key <;> rfl
      | cons next tail =>
        rw [List.singleton_append, at?_cons, at?_singleton]
        cases d.get? key with
        | none => rfl
        | some v => cases v <;> rfl
    | cons next tail =>
      rw [List.cons_append, List.cons_append, at?_cons, at?_cons]
      split
      · exact ih (List.cons_ne_nil next tail)
      · rfl

/-- Only documents have anything below them. -/
theorem exists_object_above {path rest : List String} {d : Document} {v : Value} (nonempty : path ≠ []) (more : rest ≠ [])
    (h : at? (path ++ rest) d = some v) : ∃ inner, at? path d = some (.object inner) := by
  rw [at?_append rest nonempty, Option.bind_eq_some_iff] at h
  obtain ⟨w, hw, hb⟩ := h
  obtain ⟨inner, rfl⟩ := isObject_of_below more hb
  exact ⟨inner, hw⟩

theorem isWellKeyed_at? {path : List String} {d : Document} {v : Value} (keyed : d.isWellKeyed = true)
    (h : at? path d = some v) : v.isWellKeyed = true := by
  induction path generalizing d with
  | nil => simp [at?] at h
  | cons key rest ih =>
    cases rest with
    | nil => exact isWellKeyed_of_get? keyed h
    | cons next rest =>
      rw [at?_cons] at h
      split at h
      · rename_i inner e
        exact ih (isWellKeyed_of_get? keyed e) h
      · simp at h

end Document

end BucketBench
