import BucketBench.Proofs.Json.Same
import BucketBench.Proofs.TestConfig.ReadBack

set_option autoImplicit false

namespace BucketBench

namespace TestConfig

open Setups (LastNamed)

variable {c : Collection} {fs : Files} {setupsFile : String}

/-- A document that was picked under a name has that name as its text. -/
theorem get?_nameField_of_lastNamed {name : String} {e : Document} (keyed : ∀ e ∈ c.documents, e.isWellKeyed = true)
    (last : LastNamed true (c.find (setupQuery name)) name e) :
    (Setups.shown true e).get? Setups.nameField = some (.string name) := by
  obtain ⟨mem, found⟩ := List.mem_filter.1 last.mem
  have nodup : e.keys.Nodup := Document.nodup_keys (keyed e mem)
  rw [Setups.get?_shown nodup]
  by_contra other
  have named := last.named
  rw [Setups.nameOf?_shown nodup] at named
  exact Setups.nameOf?_ne_of_matches found other named

/-- Every name of the listing stands for a document, and that document is what is picked as the target of the name,
exactly when its own name is that text and not another value with the same text. A name that is no text is never picked
as an equal document either. -/
theorem pick_listed_iff (keyed : ∀ e ∈ c.documents, e.isWellKeyed = true) (absent : fs.exists? setupsFile = false)
    (vault : Vault) (fileKey : Option String) {listing : Document} (listed : c.setups [] = .ok listing) :
    let picked name := (gather fs vault setupsFile { fileKey := fileKey, target := some name }).settle c.setups
    ∀ name ∈ listing.keys, ∃ d : Document, listing.get? name = some (.object d) ∧
      (picked name = .ok d ↔ d.get? Setups.nameField = some (.string name)) ∧
      ((∃ e, picked name = .ok e ∧ (Value.object d).same (.object e) = true) ↔
        d.get? Setups.nameField = some (.string name)) := by
  intro picked name mem
  obtain rfl : Setups.byName true (c.find []) = listing := Except.ok.inj listed
  have whole : c.find [] = c.documents := List.filter_eq_self.2 fun e _ => Document.matchesFilter_nil e
  rw [whole] at mem ⊢
  obtain ⟨v, found⟩ := Option.ne_none_iff_exists'.1 fun none => (Document.get?_eq_none_iff name _).1 none mem
  obtain ⟨d, last, rfl⟩ := Setups.get?_byName_eq_some_iff.1 found
  have keyedShown := Document.isWellKeyed_of_get? (Setups.isWellKeyed_byName keyed true) found
  have nodup : d.keys.Nodup := Document.nodup_keys (keyed d last.mem)
  have pick : (Setups.shown true d).get? Setups.nameField = some (.string name) →
      picked name = .ok (Setups.shown true d) := by
    intro text
    rw [Setups.get?_shown nodup] at text
    have matching : Document.matchesFilter (setupQuery name) d = true := Setups.matches_name_iff.2 (Or.inl text)
    exact (settle_gather_target_iff keyed absent vault fileKey name _).2 ⟨d, last.filter matching, rfl⟩
  refine ⟨Setups.shown true d, found, ⟨?_, pick⟩, ?_, fun text => ⟨_, pick text, Value.same_refl keyedShown⟩⟩
  · intro ok
    obtain ⟨e, last', same⟩ := (settle_gather_target_iff keyed absent vault fileKey name _).1 ok
    rw [same]
    exact get?_nameField_of_lastNamed keyed last'
  · rintro ⟨e, ok, same⟩
    obtain ⟨e, last', rfl⟩ := (settle_gather_target_iff keyed absent vault fileKey name _).1 ok
    have keyedOther := Setups.isWellKeyed_shown (keyed e (List.mem_of_mem_filter last'.mem)) true
    have agree := (Value.same_object_iff (Document.nodup_keys keyedShown) (Document.nodup_keys keyedOther)).1 same
      Setups.nameField
    rw [get?_nameField_of_lastNamed keyed last'] at agree
    generalize (Setups.shown true d).get? Setups.nameField = found at agree ⊢
    cases agree with
    | some same => rw [Value.same_string_iff.1 same]

/-- The setup whose name is a text is picked by it; the one whose name is an array is not picked by the text of that. -/
theorem pick_listed_iff_sampleLabs :
    let picked name := (gather sampleFiles ⟨.fixed [], "MASTER_KEY"⟩ "setups.json" { target := some name }).settle
      sampleLabs.setups
    picked "lab" = .ok (Setups.shown true sampleLab) ∧
      picked "[\"lab\"]" ≠ .ok [("setupname", .array [.string "lab"])] := by
  intro picked
  have keyed : ∀ e ∈ sampleLabs.documents, e.isWellKeyed = true := by decide
  have listed : sampleLabs.setups [] = .ok [("[\"lab\"]", .object [("setupname", .array [.string "lab"])]),
      ("lab", .object (Setups.shown true sampleLab))] := by rfl
  have absent : sampleFiles.exists? "setups.json" = false := by decide
  have exactly := pick_listed_iff keyed absent ⟨.fixed [], "MASTER_KEY"⟩ none listed
  obtain ⟨d, found, picks, -⟩ := exactly "lab" (by decide)
  obtain ⟨d', found', picks', -⟩ := exactly "[\"lab\"]" (by decide)
  cases found
  cases found'
  exact ⟨picks.2 rfl, fun ok => absurd (picks'.1 ok) nofun⟩

def numberedLabs : Collection := ⟨[[("_id", .string "1"), ("setupname", .int 5)]], Collection.numbered⟩

/-- A setup whose name is a number is listed under its digits and is not found by them. -/
theorem not_picked_of_number :
    ¬ ∀ (c : Collection) (fs : Files) (vault : Vault) (setupsFile : String) (fileKey : Option String)
        (listing : Document), (∀ e ∈ c.documents, e.isWellKeyed = true) → fs.exists? setupsFile = false →
      c.setups [] = .ok listing → ∀ name ∈ listing.keys, ∃ d picked : Document,
        listing.get? name = some (.object d) ∧
        (gather fs vault setupsFile { fileKey := fileKey, target := some name }).settle c.setups = .ok picked ∧
        (Value.object d).same (.object picked) = true := by
  intro always
  have listed : numberedLabs.setups [] = .ok [("5", .object [("setupname", .int 5)])] := by rfl
  obtain ⟨d, picked, -, ok, -⟩ := always numberedLabs sampleFiles ⟨.fixed [], "MASTER_KEY"⟩ "setups.json" none _
    (by decide) (by decide) listed "5" (by decide)
  have missing : (gather sampleFiles ⟨.fixed [], "MASTER_KEY"⟩ "setups.json" { target := some "5" }).settle
      numberedLabs.setups = .error (.config (.missingKey "5")) := by rfl
  rw [missing] at ok
  cases ok

end TestConfig

end BucketBench
