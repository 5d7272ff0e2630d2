import BucketBench.Proofs.Json.WellKeyed
import BucketBench.Json.Reader

set_option autoImplicit false

/-!
# What a reader gives

A property that holds of every value a reader can put together holds of what it reads. So a value that is read has no
key twice, because a repeated key of the text keeps its first place and its last value, and it lies within the limits
of a reader: whole numbers of 64 bits, and containers nested no deeper than it goes.
-/

namespace BucketBench

inductive Value.Fits : Nat → Value → Prop where
  | null (depth : Nat) : Fits depth .null
  | bool (depth : Nat) (b : Bool) : Fits depth (.bool b)
  | int (depth : Nat) {n : Int} (small : n ∈ IntRange.bits64) : Fits depth (.int n)
  | double (depth : Nat) (x : Double) : Fits depth (.double x)
  | string (depth : Nat) (s : String) : Fits depth (.string s)
  | array {depth : Nat} {items : List Value} (all : ∀ v ∈ items, Fits depth v) : Fits (depth + 1) (.array items)
  | object {depth : Nat} {members : Document} (all : ∀ m ∈ members, Fits depth m.2) : Fits (depth + 1) (.object members)

namespace Document

/-- Every member of an overlay is a member of one of the two documents. -/
theorem mem_overlay {base top : Document} {m : String × Value} (h : m ∈ overlay base top) : m ∈ base ∨ m ∈ top := by
  induction top generalizing base with
  | nil => exact Or.inl h
  | cons first rest ih =>
    rw [overlay_cons] at h
    obtain base | later := ih h
    · obtain same | old := mem_insert base
      · exact Or.inr (same ▸ List.mem_cons_self)
      · exact Or.inl old
    · exact Or.inr (List.mem_cons_of_mem _ later)

theorem mem_ofMembers {members : List (String × Value)} {m : String × Value} (h : m ∈ ofMembers members) :
    m ∈ members := (mem_overlay h).resolve_left List.not_mem_nil

theorem isWellKeyed_overlay {base top : Document} (keyed : base.isWellKeyed = true)
    (values : ∀ m ∈ top, m.2.isWellKeyed = true) : (overlay base top).isWellKeyed = true := by
  induction top generalizing base with
  | nil => exact keyed
  | cons m rest ih =>
    have first := isWellKeyed_insert m.1 keyed (values m List.mem_cons_self)
    exact ih first fun n hn => values n (List.mem_cons_of_mem _ hn)

theorem isWellKeyed_ofMembers {members : List (String × Value)} (values : ∀ m ∈ members, m.2.isWellKeyed = true) :
    (ofMembers members).isWellKeyed = true :=
  isWellKeyed_overlay rfl values

section Fits

variable {depth : Nat} {d : Document}

theorem fits_iff : (Value.object d).Fits (depth + 1) ↔ ∀ m ∈ d, m.2.Fits depth := by
  constructor
  · rintro ⟨⟩
    assumption
  · exact .object

theorem fits_insert (key : String) {v : Value} (hd : (Value.object d).Fits (depth + 1)) (hv : v.Fits depth) :
    (Value.object (d.insert key v)).Fits (depth + 1) := by
  rw [fits_iff] at hd ⊢
  intro m hm
  obtain rfl | old := mem_insert hm
  · exact hv
  · exact hd m old

end Fits

end Document

namespace Json

structure Kept (P : Nat → Value → Prop) : Prop where
  null (depth : Nat) : P depth .null
  bool (depth : Nat) (b : Bool) : P depth (.bool b)
  int (depth : Nat) {n : Int} (small : n ∈ IntRange.bits64) : P depth (.int n)
  double (depth : Nat) (x : Double) : P depth (.double x)
  string (depth : Nat) (s : String) : P depth (.string s)
  array {depth : Nat} {items : List Value} (all : ∀ v ∈ items, P depth v) : P (depth + 1) (.array items)
  object {depth : Nat} {members : List (String × Value)} (all : ∀ m ∈ members, P depth m.2) :
    P (depth + 1) (.object (Document.ofMembers members))

namespace Kept

variable {P : Nat → Value → Prop} (kept : Kept P)
include kept

theorem ofDigits? (depth : Nat) {negative : Bool} {n : Nat} {v : Value} (h : ofDigits? negative n = some v) :
    P depth v := by
  unfold Json.ofDigits? at h
  split at h
  · split at h
    · cases h
      exact kept.double depth _
    · split at h
      · cases h
        exact kept.int depth ‹_›
      · obtain ⟨x, -, rfl⟩ := Option.map_eq_some_iff.1 h
        exact kept.double depth x
  · split at h
    · cases h
      exact kept.int depth ‹_›
    · obtain ⟨x, -, rfl⟩ := Option.map_eq_some_iff.1 h
      exact kept.double depth x

theorem ofParts? (depth : Nat) {negative : Bool} {whole : List Char} {fraction : Option (List Char)}
    {exponent : Option Int} {v : Value} (h : ofParts? negative whole fraction exponent = some v) : P depth v := by
  unfold Json.ofParts? at h
  split at h
  · exact kept.ofDigits? depth h
  · obtain ⟨x, -, rfl⟩ := Option.map_eq_some_iff.1 h
    exact kept.double depth x

theorem readNumber? (depth : Nat) {negative : Bool} {s rest : List Char} {v : Value}
    (h : readNumber? negative s = some (v, rest)) : P depth v := by
  unfold Json.readNumber? at h
  simp only [Option.bind_eq_bind, Option.pure_def] at h
  split at h
  · cases h
  · obtain ⟨fraction, -, h⟩ := Option.bind_eq_some_iff.1 h
    obtain ⟨exponent, -, h⟩ := Option.bind_eq_some_iff.1 h
    obtain ⟨w, hw, e⟩ := Option.bind_eq_some_iff.1 h
    cases e
    exact kept.ofParts? depth hw

/-- One induction on the fuel for values, elements and members, which read each other. -/
theorem of_reading (fuel : Nat) :
    (∀ depth s v rest, readValue? depth fuel s = some (v, rest) → P depth v) ∧
      (∀ depth s vs rest, readItems? depth fuel s = some (vs, rest) → ∀ v ∈ vs, P depth v) ∧
      ∀ depth s ms rest, readMembers? depth fuel s = some (ms, rest) → ∀ m ∈ ms, P depth m.2 := by
  induction fuel with
  | zero => simp [readValue?, readItems?, readMembers?]
  | succ fuel ih =>
    obtain ⟨value, items, members⟩ := ih
    refine ⟨?_, ?_, ?_⟩
    · intro depth s v rest h
      rw [readValue?] at h
      split at h
      · cases h
        exact kept.null depth
      · cases h
        exact kept.bool depth true
      · cases h
        exact kept.bool depth false
      · obtain ⟨x, -, e⟩ := Option.map_eq_some_iff.1 h
        cases e
        exact kept.string depth _
      · exact kept.readNumber? depth h
      · split at h
        · cases h
        · split at h
          · cases h
            exact kept.array (List.forall_mem_nil _)
          · obtain ⟨x, hx, e⟩ := Option.map_eq_some_iff.1 h
            cases e
            exact kept.array (items _ _ _ _ hx)
      · split at h
        · cases h
        · split at h
          · cases h
            show P (_ + 1) (.object (Document.ofMembers []))
            exact kept.object (List.forall_mem_nil _)
          · obtain ⟨x, hx, e⟩ := Option.map_eq_some_iff.1 h
            cases e
            exact kept.object (members _ _ _ _ hx)
      · exact kept.readNumber? depth h
    · intro depth s vs rest h
      rw [readItems?] at h
      obtain ⟨⟨v, r⟩, hv, h⟩ := Option.bind_eq_some_iff.1 h
      have first := value _ _ _ _ hv
      simp only at h
      split at h
      · cases h
        simpa using first
      · obtain ⟨⟨ws, r'⟩, hw, e⟩ := Option.bind_eq_some_iff.1 h
        cases e
        intro w mem
        rcases List.mem_cons.1 mem with rfl | mem
        · exact first
        · exact items _ _ _ _ hw w mem
      · cases h
    · intro depth s ms rest h
      rw [readMembers?] at h
      obtain ⟨r, -, h⟩ := Option.bind_eq_some_iff.1 h
      obtain ⟨⟨k, r⟩, -, h⟩ := Option.bind_eq_some_iff.1 h
      obtain ⟨r, -, h⟩ := Option.bind_eq_some_iff.1 h
      obtain ⟨⟨v, r⟩, hv, h⟩ := Option.bind_eq_some_iff.1 h
      have first := value _ _ _ _ hv
      simp only at h
      split at h
      · cases h
        simpa using first
      · obtain ⟨⟨ns, r'⟩, hn, e⟩ := Option.bind_eq_some_iff.1 h
        cases e
        intro m mem
        rcases List.mem_cons.1 mem with rfl | mem
        · exact first
        · exact members _ _ _ _ hn m mem
      · cases h

theorem of_read? {text : String} {v : Value} (h : read? text = some v) : P maxDepth v := by
  simp only [read?] at h
  split at h
  · rename_i w rest hw
    split at h
    · cases h
      exact (kept.of_reading _).1 _ _ _ _ hw
    · cases h
  · cases h

end Kept

theorem isWellKeyed_read? {text : String} {v : Value} (h : read? text = some v) : v.isWellKeyed = true := by
  have kept : Kept fun _ v => v.isWellKeyed = true :=
    { null := fun _ => rfl
      bool := fun _ _ => rfl
      int := fun _ _ _ => rfl
      double := fun _ _ => rfl
      string := fun _ _ => rfl
      array := fun all => (Value.areWellKeyed_iff _).2 all
      object := fun all => Document.isWellKeyed_ofMembers all }
  exact kept.of_read? h

theorem fits_read? {text : String} {v : Value} (h : read? text = some v) : v.Fits maxDepth := by
  have kept : Kept fun depth v => v.Fits depth :=
    { null := .null
      bool := .bool
      int := fun depth _ small => .int depth small
      double := .double
      string := .string
      array := .array
      object := fun all => .object fun m hm => all m (Document.mem_ofMembers hm) }
  exact kept.of_read? h

end Json

end BucketBench
