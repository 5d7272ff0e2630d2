import BucketBench.Proofs.Json.WellKeyed
import BucketBench.Toml.Statement

set_option autoImplicit false

namespace BucketBench.Toml

/-- What every step keeps, a run of steps keeps. -/
theorem holds_foldlM {σ ι : Type} {P : σ → Prop} {step : σ → ι → Option σ} {items : List ι}
    (kept : ∀ item ∈ items, ∀ s s', step s item = some s' → P s → P s') {first last : σ}
    (run : items.foldlM step first = some last) (h : P first) : P last := by
  induction items generalizing first with
  | nil =>
    cases run
    exact h
  | cons item rest ih =>
    obtain ⟨next, stepped, later⟩ := Option.bind_eq_some_iff.1 run
    have now := kept item List.mem_cons_self first next stepped h
    exact ih (fun i mem => kept i (List.mem_cons_of_mem _ mem)) later now

theorem toMembers_eq (entries : List (String × Node)) :
    Node.toMembers entries = entries.map fun e => (e.1, e.2.toValue) := by
  induction entries with
  | nil => rfl
  | cons e rest ih => rw [Node.toMembers, ih, List.map_cons]

theorem toObjects_eq (elements : List (List (String × Node))) :
    Node.toObjects elements = elements.map fun entries => .object (Node.toMembers entries) := by
  induction elements with
  | nil => rfl
  | cons entries rest ih => rw [Node.toObjects, ih, List.map_cons]

theorem isWellKeyed_tables_iff (elements : List (List (String × Node))) :
    (Node.tables elements).toValue.isWellKeyed = true ↔
      ∀ entries ∈ elements, (Value.object (Node.toMembers entries)).isWellKeyed = true := by
  simp only [Node.toValue, Value.isWellKeyed, Value.areWellKeyed_iff, toObjects_eq, List.forall_mem_map]

namespace Table

def IsKeyed (t : Table) : Prop := t.toNode.toValue.isWellKeyed = true

def Keeps (change : Table → Option Table) : Prop := ∀ t t', change t = some t' → t.IsKeyed → t'.IsKeyed

theorem isKeyed_empty : empty.IsKeyed := rfl

variable {t t' : Table}

theorem toMembers_put (key : String) (n : Node) (t : Table) :
    Node.toMembers (t.put key n).entries = Document.insert key n.toValue (Node.toMembers t.entries) := by
  obtain ⟨isImplicit, isDotted, entries⟩ := t
  show Node.toMembers (put.go key n entries) = _
  induction entries with
  | nil => rfl
  | cons e rest ih =>
    obtain ⟨k, m⟩ := e
    by_cases h : k = key
    · simp [put.go, Node.toMembers, Document.insert, h]
    · simpa [put.go, Node.toMembers, Document.insert, h] using ih

theorem isKeyed_put (key : String) {n : Node} (keyed : t.IsKeyed) (h : n.toValue.isWellKeyed = true) :
    (t.put key n).IsKeyed := by
  show Document.isWellKeyed (Node.toMembers (t.put key n).entries) = true
  rw [toMembers_put]
  exact Document.isWellKeyed_insert key keyed h

theorem isWellKeyed_lookup? {key : String} {n : Node} (keyed : t.IsKeyed) (h : t.lookup? key = some n) :
    n.toValue.isWellKeyed = true := by
  obtain ⟨e, found, rfl⟩ := Option.map_eq_some_iff.1 h
  have member : (e.1, e.2.toValue) ∈ Node.toMembers t.entries := by
    rw [toMembers_eq]
    exact List.mem_map_of_mem (List.mem_of_find?_eq_some found)
  exact ((Document.isWellKeyed_iff _).1 keyed).2 _ member

theorem keeps_within (dotted : Bool) {change : Table → Option Table} (keeps : Keeps change) (path : List String) :
    Keeps (within dotted change path) := by
  induction path with
  | nil => exact keeps
  | cons key rest ih =>
    intro t t' h keyed
    rw [within] at h
    split at h
    · obtain ⟨inner, changed, e⟩ := Option.bind_eq_some_iff.1 h
      cases e
      exact isKeyed_put key keyed (ih _ _ changed rfl)
    · cases h
    · rename_i isImplicit isDotted entries found
      split at h
      · cases h
      · obtain ⟨inner, changed, e⟩ := Option.bind_eq_some_iff.1 h
        cases e
        exact isKeyed_put key keyed (ih _ _ changed (isWellKeyed_lookup? keyed found))
    · rename_i elements found
      split at h
      · cases h
      · rename_i last isLast
        obtain ⟨inner, changed, e⟩ := Option.bind_eq_some_iff.1 h
        cases e
        have all := (isWellKeyed_tables_iff elements).1 (isWellKeyed_lookup? keyed found)
        have keyedLast := ih _ _ changed (all last (List.mem_of_getLast? isLast))
        refine isKeyed_put key keyed ((isWellKeyed_tables_iff _).2 ?_)
        intro entries mem
        rcases List.mem_append.1 mem with mem | mem
        · exact all entries ((List.dropLast_sublist elements).subset mem)
        · cases List.mem_singleton.1 mem
          exact keyedLast

theorem keeps_opened (key : String) : Keeps (opened key) := by
  intro t t' h keyed
  rw [opened] at h
  split at h
  · cases h
    exact isKeyed_put key keyed rfl
  · rename_i entries found
    cases h
    have inner := isWellKeyed_lookup? keyed found
    exact isKeyed_put key keyed inner
  · cases h

theorem keeps_extended (key : String) : Keeps (extended key) := by
  intro t t' h keyed
  rw [extended] at h
  split at h
  · cases h
    exact isKeyed_put key keyed rfl
  · rename_i elements found
    cases h
    have all := (isWellKeyed_tables_iff elements).1 (isWellKeyed_lookup? keyed found)
    refine isKeyed_put key keyed ((isWellKeyed_tables_iff _).2 ?_)
    intro entries mem
    rcases List.mem_append.1 mem with mem | mem
    · exact all entries mem
    · cases List.mem_singleton.1 mem
      rfl
  · cases h

theorem keeps_assigned (behindDots : Bool) (key : String) {v : Value} (hv : v.isWellKeyed = true) :
    Keeps (assigned behindDots key v) := by
  intro t t' h keyed
  rw [assigned] at h
  split at h
  · cases h
  · split at h
    · cases h
      exact isKeyed_put key keyed hv
    · cases h

theorem keeps_assign (path : List String) {v : Value} (hv : v.isWellKeyed = true) : Keeps (assign path v) := by
  intro t t' h keyed
  rw [assign] at h
  split at h
  · cases h
  · exact keeps_within true (keeps_assigned _ _ hv) _ _ _ h keyed

end Table

theorem isWellKeyed_inlineTable? {entries : List (List String × Value)} {v : Value}
    (all : ∀ e ∈ entries, e.2.isWellKeyed = true) (h : inlineTable? entries = some v) : v.isWellKeyed = true := by
  obtain ⟨t, built, rfl⟩ := Option.map_eq_some_iff.1 h
  have kept : ∀ e ∈ entries, ∀ s s', Table.assign e.1 e.2 s = some s' → s.IsKeyed → s'.IsKeyed :=
    fun e mem => Table.keeps_assign e.1 (all e mem)
  exact holds_foldlM kept built Table.isKeyed_empty

/-! ## Values -/

theorem isWellKeyed_inRange? {n : Int} {v : Value} (h : inRange? n = some v) : v.isWellKeyed = true := by
  unfold inRange? at h
  split at h
  · cases h
    rfl
  · cases h

theorem isWellKeyed_readBase {base : Nat} {isDigit : Char → Bool} {s r : List Char} {v : Value}
    (h : readBase base isDigit s = some (v, r)) : v.isWellKeyed = true := by
  obtain ⟨⟨ds, r'⟩, -, h⟩ := Option.bind_eq_some_iff.1 h
  obtain ⟨w, hw, e⟩ := Option.bind_eq_some_iff.1 h
  cases e
  exact isWellKeyed_inRange? hw

theorem isWellKeyed_readInteger {s r : List Char} {v : Value} (h : readInteger s = some (v, r)) :
    v.isWellKeyed = true := by
  unfold readInteger at h
  split at h
  · exact isWellKeyed_readBase h
  · exact isWellKeyed_readBase h
  · exact isWellKeyed_readBase h
  · obtain ⟨⟨⟨negative, ds⟩, r'⟩, -, h⟩ := Option.bind_eq_some_iff.1 h
    obtain ⟨w, hw, e⟩ := Option.bind_eq_some_iff.1 h
    cases e
    exact isWellKeyed_inRange? hw

theorem isWellKeyed_readSpecial {s r : List Char} {v : Value} (h : readSpecial s = some (v, r)) :
    v.isWellKeyed = true := by
  unfold readSpecial at h
  simp only at h
  split at h
  · cases h
    rfl
  · cases h
    rfl
  · cases h

theorem isWellKeyed_rounded {x : Option Double} {negative : Bool} {r r' : List Char} {v : Value}
    (h : (match x with
      | some x => some (.double x, r)
      | none => if negative then some (unusable, r) else none) = some (v, r')) : v.isWellKeyed = true := by
  split at h
  · cases h
    rfl
  · split at h
    · cases h
      rfl
    · cases h

theorem isWellKeyed_readFloat {s r : List Char} {v : Value} (h : readFloat s = some (v, r)) :
    v.isWellKeyed = true := by
  unfold readFloat at h
  obtain ⟨⟨⟨negative, whole⟩, r₁⟩, -, h⟩ := Option.bind_eq_some_iff.1 h
  dsimp only at h
  split at h
  all_goals
    obtain ⟨⟨fraction, r₂⟩, -, h⟩ := Option.bind_eq_some_iff.1 h
    dsimp only at h
    split at h
  all_goals
    obtain ⟨⟨exponent, r₃⟩, -, h⟩ := Option.bind_eq_some_iff.1 h
    exact isWellKeyed_rounded h

theorem isWellKeyed_readNumeric {s r : List Char} {v : Value} (h : readNumeric s = some (v, r)) :
    v.isWellKeyed = true := by
  unfold readNumeric at h
  split at h
  · obtain ⟨r', -, e⟩ := Option.map_eq_some_iff.1 h
    cases e
    rfl
  · split at h
    · rename_i special found
      cases h
      exact isWellKeyed_readSpecial found
    · split at h
      · split at h
        · exact isWellKeyed_readFloat h
        · exact isWellKeyed_readInteger h
      · cases h

/-- One induction on the fuel for values, elements and entries, which read each other. -/
theorem isWellKeyed_reading (fuel : Nat) :
    (∀ depth s v r, readValue depth fuel s = some (v, r) → v.isWellKeyed = true) ∧
      (∀ depth s vs r, readElements depth fuel s = some (vs, r) → ∀ v ∈ vs, v.isWellKeyed = true) ∧
      ∀ depth s es r, readEntries depth fuel s = some (es, r) → ∀ e ∈ es, e.2.isWellKeyed = true := by
  induction fuel with
  | zero => simp [readValue, readElements, readEntries]
  | succ fuel ih =>
    obtain ⟨value, elements, entries⟩ := ih
    refine ⟨?_, ?_, ?_⟩
    · intro depth s v r h
      unfold readValue at h
      split at h
      · obtain ⟨x, -, e⟩ := Option.map_eq_some_iff.1 h
        cases e
        rfl
      · obtain ⟨x, -, e⟩ := Option.map_eq_some_iff.1 h
        cases e
        rfl
      · cases h
        rfl
      · cases h
        rfl
      · split at h
        · cases h
        · obtain ⟨x, hx, e⟩ := Option.map_eq_some_iff.1 h
          cases e
          exact (Value.areWellKeyed_iff _).2 (elements _ _ _ _ hx)
      · split at h
        · cases h
        · split at h
          · cases h
            rfl
          · obtain ⟨⟨es, r'⟩, he, h⟩ := Option.bind_eq_some_iff.1 h
            obtain ⟨w, hw, e⟩ := Option.bind_eq_some_iff.1 h
            cases e
            exact isWellKeyed_inlineTable? (entries _ _ _ _ he) hw
      · exact isWellKeyed_readNumeric h
    · intro depth s vs r h
      rw [readElements] at h
      split at h
      · cases h
        exact List.forall_mem_nil _
      · obtain ⟨⟨v, r'⟩, hv, h⟩ := Option.bind_eq_some_iff.1 h
        have first := value _ _ _ _ hv
        simp only at h
        split at h
        · obtain ⟨⟨ws, r''⟩, hw, e⟩ := Option.bind_eq_some_iff.1 h
          cases e
          exact List.forall_mem_cons.2 ⟨first, elements _ _ _ _ hw⟩
        · cases h
          exact List.forall_mem_singleton.2 first
        · cases h
    · intro depth s es r h
      rw [readEntries] at h
      obtain ⟨⟨path, r₁⟩, -, h⟩ := Option.bind_eq_some_iff.1 h
      dsimp only at h
      split at h
      case h_2 => cases h
      obtain ⟨r₂, -, h⟩ := Option.bind_eq_some_iff.1 h
      obtain ⟨⟨v, r₃⟩, hv, h⟩ := Option.bind_eq_some_iff.1 h
      have first := value _ _ _ _ hv
      simp only at h
      split at h
      · obtain ⟨⟨rest, r₄⟩, hr, e⟩ := Option.bind_eq_some_iff.1 h
        cases e
        exact List.forall_mem_cons.2 ⟨first, entries _ _ _ _ hr⟩
      · cases h
        exact List.forall_mem_singleton.2 first
      · cases h

/-! ## Statements -/

def Statement.IsKeyed : Statement → Prop
  | .assign _ _ v => v.isWellKeyed = true
  | _ => True

theorem isKeyed_readHeader {s r : List Char} {statement : Statement} (h : readHeader s = some (statement, r)) :
    statement.IsKeyed := by
  unfold readHeader at h
  split at h
  · obtain ⟨⟨path, r₁⟩, -, h⟩ := Option.bind_eq_some_iff.1 h
    obtain ⟨r₂, -, h⟩ := Option.bind_eq_some_iff.1 h
    obtain ⟨r₃, -, h⟩ := Option.bind_eq_some_iff.1 h
    obtain ⟨r₄, -, e⟩ := Option.bind_eq_some_iff.1 h
    cases e
    trivial
  · obtain ⟨⟨path, r₁⟩, -, h⟩ := Option.bind_eq_some_iff.1 h
    obtain ⟨r₂, -, h⟩ := Option.bind_eq_some_iff.1 h
    obtain ⟨r₃, -, e⟩ := Option.bind_eq_some_iff.1 h
    cases e
    trivial

theorem isKeyed_readAssignment {s r : List Char} {statement : Statement}
    (h : readAssignment s = some (statement, r)) : statement.IsKeyed := by
  obtain ⟨⟨path, r₁⟩, -, h⟩ := Option.bind_eq_some_iff.1 h
  obtain ⟨key, -, h⟩ := Option.bind_eq_some_iff.1 h
  obtain ⟨r₂, -, h⟩ := Option.bind_eq_some_iff.1 h
  obtain ⟨⟨v, r₃⟩, hv, h⟩ := Option.bind_eq_some_iff.1 h
  obtain ⟨r₄, -, e⟩ := Option.bind_eq_some_iff.1 h
  cases e
  exact (isWellKeyed_reading _).1 _ _ _ _ hv

theorem isKeyed_readStatements {fuel : Nat} {s : List Char} {statements : List Statement}
    (h : readStatements fuel s = some statements) : ∀ statement ∈ statements, statement.IsKeyed := by
  induction fuel generalizing s statements with
  | zero => cases h
  | succ fuel ih =>
    rw [readStatements] at h
    split at h
    · cases h
      exact List.forall_mem_nil _
    · obtain ⟨⟨statement, r⟩, first, h⟩ := Option.bind_eq_some_iff.1 h
      obtain ⟨rest, later, e⟩ := Option.bind_eq_some_iff.1 h
      cases e
      exact List.forall_mem_cons.2 ⟨isKeyed_readHeader first, ih later⟩
    · obtain ⟨⟨statement, r⟩, first, h⟩ := Option.bind_eq_some_iff.1 h
      obtain ⟨rest, later, e⟩ := Option.bind_eq_some_iff.1 h
      cases e
      exact List.forall_mem_cons.2 ⟨isKeyed_readAssignment first, ih later⟩

theorem isKeyed_step {b b' : Building} {statement : Statement} (keyed : statement.IsKeyed)
    (h : b.step statement = some b') (root : b.root.IsKeyed) : b'.root.IsKeyed := by
  cases statement with
  | header path =>
    obtain ⟨key, -, h⟩ := Option.bind_eq_some_iff.1 h
    obtain ⟨t, changed, e⟩ := Option.bind_eq_some_iff.1 h
    cases e
    exact Table.keeps_within false (Table.keeps_opened key) _ _ _ changed root
  | element path =>
    obtain ⟨key, -, h⟩ := Option.bind_eq_some_iff.1 h
    obtain ⟨t, changed, e⟩ := Option.bind_eq_some_iff.1 h
    cases e
    exact Table.keeps_within false (Table.keeps_extended key) _ _ _ changed root
  | assign path key v =>
    obtain ⟨t, changed, e⟩ := Option.bind_eq_some_iff.1 h
    cases e
    exact Table.keeps_within false (Table.keeps_assign _ keyed) _ _ _ changed root

theorem isWellKeyed_read? {text : String} {v : Value} (h : read? text = some v) : v.isWellKeyed = true := by
  obtain ⟨statements, read, h⟩ := Option.bind_eq_some_iff.1 h
  obtain ⟨b, built, e⟩ := Option.bind_eq_some_iff.1 h
  cases e
  have kept : ∀ statement ∈ statements, ∀ b b' : Building, b.step statement = some b' →
      b.root.IsKeyed → b'.root.IsKeyed :=
    fun statement mem b b' => isKeyed_step (isKeyed_readStatements read statement mem)
  exact holds_foldlM kept built Table.isKeyed_empty

end BucketBench.Toml
