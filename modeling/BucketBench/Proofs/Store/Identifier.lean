import BucketBench.Proofs.Store.Update

set_option autoImplicit false

namespace BucketBench

/-! ## Paths that lead to the identifier -/

def ReachesIdentifier (path : String) : Prop := path = idField ∨ DottedPrefix idField path

theorem pathKeys_idField : pathKeys idField = [idField] := by decide

theorem reachesIdentifier_iff (path : String) :
    ReachesIdentifier path ↔ ∃ rest, pathKeys path = idField :: rest :=
  within_iff pathKeys_idField path

theorem reachesIdentifier_idField : ReachesIdentifier idField := Or.inl rfl

theorem incomparable_of_reachesIdentifier {p q : String} (hp : ReachesIdentifier p) (hq : ¬ ReachesIdentifier q) :
    Incomparable q p :=
  incomparable_of_within pathKeys_idField hp hq

namespace Edit

theorem exists_last_reaching {edits : List Edit} (h : ∃ e ∈ edits, ReachesIdentifier e.path) :
    ∃ before edit rest, edits = before ++ edit :: rest ∧ ReachesIdentifier edit.path ∧
      ∀ f ∈ rest, ¬ ReachesIdentifier f.path := by
  induction edits with
  | nil =>
    obtain ⟨e, he, -⟩ := h
    simp at he
  | cons first edits ih =>
    by_cases later : ∃ e ∈ edits, ReachesIdentifier e.path
    · obtain ⟨before, edit, rest, rfl, reaches, none⟩ := ih later
      exact ⟨first :: before, edit, rest, rfl, reaches, none⟩
    · obtain ⟨e, he, reaches⟩ := h
      rcases List.mem_cons.1 he with rfl | he
      · exact ⟨[], e, edits, rfl, reaches, fun f hf hr => later ⟨f, hf, hr⟩⟩
      · exact absurd ⟨e, he, reaches⟩ later

/-- For an edit that leads to the identifier there is a chain of documents, starting at that field, that is not
as the edit wants it. -/
theorem exists_unsettled {edit : Edit} (reaches : ReachesIdentifier edit.path) :
    ∃ keys chain, keys ≠ [] ∧ Document.setAt (.object []) keys [] = .ok chain ∧
      (chain.get? idField).isSome = true ∧ ¬ Settled chain edit := by
  obtain ⟨rest, hrest⟩ := (reachesIdentifier_iff edit.path).1 reaches
  cases edit with
  | set path value =>
    have keys : pathKeys path = idField :: rest := hrest
    cases rest with
    | nil =>
      -- one of two documents is not the same as the value
      by_cases h : (Value.object []).same value = true
      · refine ⟨[idField, ""], [(idField, .object [("", .object [])])], by simp, rfl, rfl, ?_⟩
        rintro ⟨v, found, hv⟩
        rw [keys] at found
        cases found
        cases value with
        | object members => cases members <;> simp [Value.same, Value.sameMembers] at h hv
        | _ => simp [Value.same] at h
      · refine ⟨[idField], [(idField, .object [])], by simp, rfl, rfl, ?_⟩
        rintro ⟨v, found, hv⟩
        rw [keys] at found
        cases found
        exact h hv
    | cons next tail =>
      refine ⟨[idField], [(idField, .object [])], by simp, rfl, rfl, ?_⟩
      rintro ⟨v, found, -⟩
      have inner : Document.get? idField [(idField, .object [])] = some (.object []) := rfl
      rw [keys, Document.at?_of_object (List.cons_ne_nil next tail) inner, Document.at?_empty] at found
      cases found
  | unset path =>
    have keys : pathKeys path = idField :: rest := hrest
    rcases ok_or_fails (Document.setAt (.object []) (pathKeys path) []) with ⟨chain, written⟩ | fails
    · have found := Document.at?_setAt_self (pathKeys_ne_nil path) written
      refine ⟨pathKeys path, chain, pathKeys_ne_nil path, written, ?_, ?_⟩
      · cases h : chain.get? idField with
        | some v => rfl
        | none =>
          rw [keys, Document.at?_of_absent rest h] at found
          cases found
      · intro gone
        have absent : chain.at? (pathKeys path) = none := gone
        rw [found] at absent
        cases absent
    · exact absurd ((Document.setAt_fails_iff _ _ _).1 fails) (Document.not_blocked_empty _)

end Edit

namespace Collection

open Edit (Acceptable Settled listing)

/-! ## Runs -/

def Identified (c : Collection) : Prop := ∀ d ∈ c.documents, (d.get? idField).isSome = true

def identifiers (c : Collection) : List (Option Value) := c.documents.map (Document.get? idField)

/-- The collections that insertions and allowed updates lead to, from a collection of any documents. Whether a call
succeeds does not matter. -/
inductive Reachable (allowed : Document → Prop) : Collection → Prop where
  | start (documents : List Document) (fresh : Nat → String) (keyed : ∀ d ∈ documents, d.isWellKeyed = true) :
      Reachable allowed (ofDocuments documents fresh)
  | insert {c : Collection} (d : Document) (keyed : d.isWellKeyed = true) (reached : Reachable allowed c) :
      Reachable allowed (c.perform (.insertOne d)).2
  | update {c : Collection} (filter update : Document) (keyed : update.isWellKeyed = true)
      (permitted : allowed update) (reached : Reachable allowed c) :
      Reachable allowed (c.perform (.updateMany filter update)).2

def Applicable (update : Document) : Prop :=
  Acceptable update ∧ ∃ d : Document, d.isWellKeyed = true ∧ ∃ r, Edit.applyAll (listing update) d = .ok r

def AddressesIdentifier (update : Document) : Prop := ∃ e ∈ listing update, ReachesIdentifier e.path

structure Sound (c : Collection) : Prop where
  keyed : ∀ d ∈ c.documents, d.isWellKeyed = true
  identified : c.Identified

theorem sound_empty (fresh : Nat → String) : Sound (empty fresh) where
  keyed := fun _ hd => absurd hd List.not_mem_nil
  identified := fun _ hd => absurd hd List.not_mem_nil

theorem sound_append {c : Collection} {d : Document} (fresh : Nat → String) (h : Sound c) (keyed : d.isWellKeyed = true)
    (identified : (d.get? idField).isSome = true) : Sound ⟨c.documents ++ [d], fresh⟩ where
  keyed := by
    intro e he
    rcases List.mem_append.1 he with he | he
    · exact h.keyed e he
    · rwa [List.mem_singleton.1 he]
  identified := by
    intro e he
    rcases List.mem_append.1 he with he | he
    · exact h.identified e he
    · rwa [List.mem_singleton.1 he]

theorem sound_insert {c : Collection} {d : Document} (h : Sound c) (keyed : d.isWellKeyed = true) :
    Sound (c.insert d).2 := by
  unfold insert
  split
  · rename_i id found
    exact sound_append _ h keyed (by rw [found]; rfl)
  · refine sound_append _ h (Document.isWellKeyed_insert idField keyed rfl) ?_
    rw [Document.get?_insert_self]
    rfl

theorem sound_ofDocuments {documents : List Document} (fresh : Nat → String)
    (keyed : ∀ d ∈ documents, d.isWellKeyed = true) : Sound (ofDocuments documents fresh) := by
  have fold : ∀ {c : Collection} (ds : List Document), Sound c → (∀ d ∈ ds, d.isWellKeyed = true) →
      Sound (ds.foldl (fun c d => (c.insert d).2) c) := by
    intro c ds
    induction ds generalizing c with
    | nil => exact fun h _ => h
    | cons d ds ih =>
      intro h keyed
      exact ih (sound_insert h (keyed d List.mem_cons_self)) fun e he => keyed e (List.mem_cons_of_mem _ he)
  exact fold documents (sound_empty fresh) keyed

theorem perform_updateMany (filter update : Document) (c : Collection) :
    (c.perform (.updateMany filter update)).2 = ((updateMany filter update).run c).2 := by
  simp only [perform]
  split
  · rename_i h
    rw [h]
  · rename_i h
    rw [h]

/-! ## Updates that keep the identifiers -/

section Update

variable {filter update : Document} {c : Collection}

theorem get?_edited_of_not_addressed {edits : List Edit} {d : Document} (keyed : d.isWellKeyed = true)
    (hv : ∀ e ∈ edits, e.isWellKeyed = true) (away : ∀ e ∈ edits, ¬ ReachesIdentifier e.path) :
    (edited filter edits d).get? idField = d.get? idField := by
  have apart : ∀ e ∈ edits, Incomparable e.path idField := fun e he =>
    incomparable_of_reachesIdentifier reachesIdentifier_idField (away e he)
  have kept : (edited filter edits d).at? (pathKeys idField) = d.at? (pathKeys idField) :=
    at?_edited_of_incomparable keyed hv apart
  rw [pathKeys_idField] at kept
  exact kept

theorem identifiers_updateMany (keyed : ∀ d ∈ c.documents, d.isWellKeyed = true) (hu : update.isWellKeyed = true)
    (away : Applicable update → ¬ AddressesIdentifier update) :
    ((updateMany filter update).run c).2.identifiers = c.identifiers := by
  have hv : ∀ e ∈ listing update, e.isWellKeyed = true := fun e he => Edit.isWellKeyed_of_mem_listing hu he
  rcases h : (updateMany filter update).run c with ⟨outcome, after⟩
  cases outcome with
  | error fault => rw [eq_of_updateMany_eq_error h]
  | ok summary =>
    obtain ⟨acceptable, taken, rfl⟩ := of_updateMany_eq_ok h
    have each : ∀ d ∈ c.documents, (edited filter (listing update) d).get? idField = d.get? idField := by
      intro d hd
      by_cases hm : Document.matchesFilter filter d = true
      · have applicable : Applicable update := ⟨acceptable, d, keyed d hd, taken d hd hm⟩
        exact get?_edited_of_not_addressed (keyed d hd) hv fun e he reaches => away applicable ⟨e, he, reaches⟩
      · rw [edited_of_not_matches (by simpa using hm)]
    simpa [identifiers] using each

theorem isWellKeyed_updateMany (keyed : ∀ d ∈ c.documents, d.isWellKeyed = true) (hu : update.isWellKeyed = true) :
    ∀ d ∈ ((updateMany filter update).run c).2.documents, d.isWellKeyed = true := by
  rcases h : (updateMany filter update).run c with ⟨outcome, after⟩
  cases outcome with
  | error fault =>
    rw [eq_of_updateMany_eq_error h]
    exact keyed
  | ok summary =>
    obtain ⟨-, -, rfl⟩ := of_updateMany_eq_ok h
    intro d hd
    obtain ⟨before, hb, rfl⟩ := List.mem_map.1 hd
    exact isWellKeyed_edited (keyed before hb) fun e he => Edit.isWellKeyed_of_mem_listing hu he

theorem identified_of_identifiers_eq {after : Collection} (h : after.identifiers = c.identifiers)
    (identified : c.Identified) : after.Identified := by
  intro d hd
  have mem : d.get? idField ∈ after.identifiers := List.mem_map_of_mem hd
  rw [h] at mem
  obtain ⟨before, hb, e⟩ := List.mem_map.1 mem
  rw [← e]
  exact identified before hb

theorem sound_updateMany (h : Sound c) (hu : update.isWellKeyed = true)
    (away : Applicable update → ¬ AddressesIdentifier update) : Sound ((updateMany filter update).run c).2 where
  keyed := isWellKeyed_updateMany h.keyed hu
  identified := identified_of_identifiers_eq (identifiers_updateMany h.keyed hu away) h.identified

end Update

theorem sound_of_reachable {allowed : Document → Prop} {c : Collection}
    (safe : ∀ update : Document, update.isWellKeyed = true → allowed update → Applicable update →
      ¬ AddressesIdentifier update) (reached : Reachable allowed c) : Sound c := by
  induction reached with
  | start documents fresh keyed => exact sound_ofDocuments fresh keyed
  | insert d keyed _ ih => exact sound_insert ih keyed
  | update filter update keyed permitted _ ih =>
    rw [perform_updateMany]
    exact sound_updateMany ih keyed (safe update keyed permitted)

/-! ## Updates that do not -/

/-- An update that leads to the identifier takes or changes that of some document that has one. -/
theorem exists_identifiers_ne {update : Document} (hu : update.isWellKeyed = true) (applicable : Applicable update)
    (addresses : AddressesIdentifier update) :
    ∃ d : Document, d.isWellKeyed = true ∧ (d.get? idField).isSome = true ∧
      ((updateMany [] update).run (ofDocuments [d])).2.identifiers ≠ (ofDocuments [d]).identifiers := by
  obtain ⟨before, edit, rest, split, reaches, later⟩ := Edit.exists_last_reaching addresses
  obtain ⟨keys, chain, nonempty, written, identified, unsettled⟩ := Edit.exists_unsettled reaches
  have keyed : chain.isWellKeyed = true := Document.isWellKeyed_setAt rfl rfl written
  have hv : ∀ e ∈ listing update, e.isWellKeyed = true := fun e he => Edit.isWellKeyed_of_mem_listing hu he
  refine ⟨chain, keyed, identified, ?_⟩
  have alone : ofDocuments [chain] = ⟨[chain], numbered⟩ := by
    obtain ⟨id, found⟩ := Option.isSome_iff_exists.1 identified
    simp [ofDocuments, insert, empty, found]
  -- nothing stands in the way of the edits in a chain of documents
  obtain ⟨acceptable, d, hd, ⟨copy, changed⟩, hc⟩ := applicable
  obtain ⟨⟨after, changed'⟩, taken⟩ :=
    Edit.applyAll_of_freer (Document.freer_of_setAt_empty nonempty written d) hd keyed hv hc
  have goes : ∀ d ∈ (⟨[chain], numbered⟩ : Collection).documents, Document.matchesFilter [] d = true →
      ∃ r, Edit.applyAll (listing update) d = .ok r := by
    intro d hd _
    rw [List.mem_singleton.1 hd]
    exact ⟨_, taken⟩
  obtain ⟨summary, stored, run⟩ := updateMany_eq_ok_of_taken acceptable goes
  obtain ⟨-, -, rfl⟩ := of_updateMany_eq_ok run
  rw [alone, run]
  intro same
  have kept : (edited [] (listing update) chain).get? idField = chain.get? idField := by
    simpa [identifiers] using same
  -- the last edit that leads there is settled, which the chain was not
  have settled : Settled after edit := by
    have apart : ∀ e ∈ rest, Incomparable e.path edit.path := fun e he =>
      incomparable_of_reachesIdentifier reaches (later e he)
    rw [split] at taken hv
    exact Edit.settled_applyAll_of_last keyed hv apart taken
  have mem : edit ∈ listing update := by simp [split]
  have settled' := settled_edited_of_settled keyed hv (Document.matchesFilter_nil chain) taken mem settled
  obtain ⟨more, hkeys⟩ := (reachesIdentifier_iff edit.path).1 reaches
  refine unsettled (Edit.settled_of_at?_eq ?_ settled')
  rw [hkeys]
  exact Document.at?_of_get?_eq more kept

/-- With some updates allowed, every reachable collection has identifiers and every such update keeps them, exactly
when none of the allowed updates that some document takes leads to the identifier. -/
theorem identifiers_kept_iff (allowed : Document → Prop) :
    (∀ c, Reachable allowed c → c.Identified ∧
        ∀ filter update : Document, update.isWellKeyed = true → allowed update →
          (c.perform (.updateMany filter update)).2.identifiers = c.identifiers) ↔
      ∀ update : Document, update.isWellKeyed = true → allowed update → Applicable update →
        ¬ AddressesIdentifier update := by
  constructor
  · intro kept update hu permitted applicable addresses
    obtain ⟨d, keyed, -, ne⟩ := exists_identifiers_ne hu applicable addresses
    have reached : Reachable allowed (ofDocuments [d]) :=
      .start [d] numbered fun e he => by rwa [List.mem_singleton.1 he]
    have same := (kept _ reached).2 [] update hu permitted
    rw [perform_updateMany] at same
    exact ne same
  · intro safe c reached
    have sound := sound_of_reachable safe reached
    refine ⟨sound.identified, ?_⟩
    intro filter update hu permitted
    rw [perform_updateMany]
    exact identifiers_updateMany sound.keyed hu (safe update hu permitted)

theorem identifier_lost_by_unset :
    ¬ ∀ c, Reachable (fun _ => True) c → c.Identified ∧
        ∀ filter update : Document, update.isWellKeyed = true →
          (c.perform (.updateMany filter update)).2.identifiers = c.identifiers := by
  intro kept
  have reached : Reachable (fun _ => True) (ofDocuments [[("_id", .string "a")]]) := .start _ _ (by decide)
  have same := (kept _ reached).2 [] [("$unset", .object [("_id", .string "")])] (by decide)
  have emptied : (ofDocuments [[("_id", .string "a")]]).perform
      (.updateMany [] [("$unset", .object [("_id", .string "")])]) = (.ok (.updated ⟨1, 1⟩), ⟨[[]], numbered⟩) := rfl
  rw [emptied] at same
  cases same

end Collection

end BucketBench
