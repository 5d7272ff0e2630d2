import BucketBench.Proofs.Command.Assignment
import BucketBench.Proofs.Store.Identifier
import BucketBench.Proofs.Store.Setups
import BucketBench.Proofs.TestConfig.Gather

set_option autoImplicit false

/-!
# What an update writes is read back

The details of a lab system are written by path and read as a whole. An update built from assignments leaves its name
and its identifier alone, so the system is still found, and what is gathered for it has the new values in their places:
`update_readBack`.
-/

namespace BucketBench

theorem at?_remove_idField {d : Document} (nodup : d.keys.Nodup) {path : String} (outside : ¬ Within idField path) :
    (d.remove idField).at? (pathKeys path) = d.at? (pathKeys path) := by
  obtain ⟨key, more, e⟩ := List.exists_cons_of_ne_nil (pathKeys_ne_nil path)
  have ne : idField ≠ key := by
    rintro rfl
    exact outside ((within_iff pathKeys_idField path).2 ⟨more, e⟩)
  rw [e]
  apply Document.at?_of_get?_eq
  rw [Document.get?_remove idField key nodup, if_neg ne]

def Collection.setups (c : Collection) (query : Document) : Except Error Document :=
  .ok (Setups.byName true (c.find query))

namespace TestConfig

open Assignment (LastAssigned Separate Touched denoted)
open Setups (LastNamed OnlyNamed)

/-- A target is gathered from the collection as the last document that is found and listed under its name. -/
theorem settle_gather_target_iff {c : Collection} {fs : Files} {setupsFile : String}
    (keyed : ∀ e ∈ c.documents, e.isWellKeyed = true)
    (absent : fs.exists? setupsFile = false) (vault : Vault) (fileKey : Option String) (name : String) (d : Document) :
    (gather fs vault setupsFile { fileKey := fileKey, target := some name }).settle c.setups = .ok d ↔
      ∃ e, LastNamed true (c.find (setupQuery name)) name e ∧ d = Setups.shown true e := by
  have found : ∀ e ∈ c.find (setupQuery name), e.isWellKeyed = true := fun e he => keyed e (List.mem_of_mem_filter he)
  have listing := Setups.isWellKeyed_byName found true
  have readable : Readable fs vault setupsFile c.setups { fileKey := fileKey, target := some name } .null
      (.object (Setups.byName true (c.find (setupQuery name)))) := by
    refine ⟨nofun, ?_, ?_⟩
    · intro target _ there
      rw [absent] at there
      cases there
    · rintro target ⟨⟩ -
      exact ⟨_, listing, rfl, rfl⟩
  have asked : some name ≠ none := Option.some_ne_none name
  rw [settle_gather_eq_ok_iff readable (Or.inr asked)]
  constructor
  · rintro ⟨base, top, rfl, ⟨details, ⟨inner, same, listed⟩, w, rfl, counts⟩, rfl⟩
    cases same
    have gives : Gives none w top := ⟨w, rfl, counts⟩
    have whole : Document.overlay [] top = top := by
      apply Document.overlay_of_nodup
      exact nodup_of_gives (Document.isWellKeyed_of_get? listing listed) gives
    obtain ⟨e, last, rfl⟩ := Setups.get?_byName_eq_some_iff.1 listed
    rw [whole]
    exact ⟨e, last, (Value.object.inj (counts.resolve_right nofun)).symm⟩
  · rintro ⟨e, last, rfl⟩
    have listed := Setups.get?_byName_eq_some_iff.2 ⟨e, last, rfl⟩
    have whole : Document.overlay [] (Setups.shown true e) = Setups.shown true e := by
      apply Document.overlay_of_nodup
      exact Document.nodup_keys (Document.isWellKeyed_of_get? listing listed)
    exact ⟨[], _, rfl, ⟨_, ⟨_, rfl, listed⟩, _, rfl, Or.inl rfl⟩, whole.symm⟩

theorem settle_gather_setups {c : Collection} {s : String} {d : Document} {fs : Files} {setupsFile : String}
    (keyed : ∀ e ∈ c.documents, e.isWellKeyed = true) (only : OnlyNamed c.documents s d)
    (absent : fs.exists? setupsFile = false) (vault : Vault) (fileKey : Option String) :
    (gather fs vault setupsFile { fileKey := fileKey, target := some s }).settle c.setups =
      .ok (d.remove idField) :=
  (settle_gather_target_iff keyed absent vault fileKey s _).2 ⟨d, only.lastNamed keyed true, rfl⟩

section Update

variable {c : Collection} {s : String} {d u : Document} {assignments removals : List String}

theorem onlyNamed_edited (keyed : ∀ e ∈ c.documents, e.isWellKeyed = true) (only : OnlyNamed c.documents s d)
    (outside : ∀ path, Touched assignments removals path → ¬ Within Setups.nameField path)
    (built : Assignment.update assignments removals = .ok u) (filter : Document) :
    OnlyNamed (c.documents.map (Collection.edited filter (Edit.listing u))) s
      (Collection.edited filter (Edit.listing u) d) := by
  apply only.map
  intro e he
  have hv : ∀ edit ∈ Edit.listing u, edit.isWellKeyed = true := fun edit => Assignment.isWellKeyed_of_mem_listing built
  have apart : ∀ edit ∈ Edit.listing u, Incomparable edit.path Setups.nameField := by
    intro edit hedit
    have touched := Assignment.touched_of_mem_listing built hedit
    exact incomparable_of_within Setups.pathKeys_nameField (Or.inl rfl) (outside edit.path touched)
  have kept : (Collection.edited filter (Edit.listing u) e).at? (pathKeys Setups.nameField) =
      e.at? (pathKeys Setups.nameField) :=
    Collection.at?_edited_of_incomparable (keyed e he) hv apart
  rw [Setups.pathKeys_nameField] at kept
  exact kept

/-- An update built from assignments and removals at separate places is refused only for a part that is no document.
When it is carried out on the setups of a name, gathering the details of that name gives the last value assigned to each
path, nothing at each removed path, and at every other place what its document had before. -/
theorem update_readBack (keyed : ∀ e ∈ c.documents, e.isWellKeyed = true) (only : OnlyNamed c.documents s d)
    (separate : Separate assignments removals)
    (outside : ∀ path, Touched assignments removals path → ¬ Within idField path ∧ ¬ Within Setups.nameField path)
    (built : Assignment.update assignments removals = .ok u) :
    (∀ (filter : Document) (c' after : Collection) (fault : StoreFault),
      (Collection.updateMany filter u).run c' = (.error fault, after) →
        ∃ field part path, fault = .notADocument field part path) ∧
    ∀ summary after, (Collection.updateMany (setupQuery s) u).run c = (.ok summary, after) →
      ∀ (fs : Files) (vault : Vault) (setupsFile : String) (fileKey : Option String),
        fs.exists? setupsFile = false →
        ∃ shown, (gather fs vault setupsFile { fileKey := fileKey, target := some s }).settle after.setups = .ok shown ∧
          (∀ path raw, LastAssigned assignments path raw →
            ∃ v, shown.at? (pathKeys path) = some v ∧ v.same (denoted raw) = true) ∧
          (∀ path ∈ removals, shown.at? (pathKeys path) = none) ∧
          ∀ path, (∀ other, Touched assignments removals other → Incomparable other path) → ¬ Within idField path →
            shown.at? (pathKeys path) = d.at? (pathKeys path) := by
  refine ⟨?_, ?_⟩
  · intro filter c' after fault fails
    exact Collection.exists_notADocument_of_updateMany (Assignment.acceptable_update built) fails
  · intro summary after done fs vault setupsFile fileKey absent
    have keyed' : ∀ e ∈ ((Collection.updateMany (setupQuery s) u).run c).2.documents, e.isWellKeyed = true :=
      Collection.isWellKeyed_updateMany keyed (Assignment.isWellKeyed_update built)
    rw [done] at keyed'
    obtain ⟨-, taken, rfl⟩ := Collection.of_updateMany_eq_ok done
    have hv : ∀ edit ∈ Edit.listing u, edit.isWellKeyed = true := fun edit => Assignment.isWellKeyed_of_mem_listing built
    have only' := onlyNamed_edited keyed only (fun path touched => (outside path touched).2) built (setupQuery s)
    have nodup := Document.nodup_keys (keyed' _ only'.mem)
    have settled := Collection.settled_edited (keyed d only.mem) hv (Assignment.pairwise_listing built separate)
      only.matches (taken d only.mem only.matches)
    refine ⟨_, settle_gather_setups keyed' only' absent vault fileKey, ?_, ?_, ?_⟩
    · intro path raw last
      rw [at?_remove_idField nodup (outside path (Or.inl last.assigned)).1]
      exact settled _ (Assignment.set_mem_listing built last)
    · intro path removed
      rw [at?_remove_idField nodup (outside path (Or.inr removed)).1]
      exact settled _ (Assignment.unset_mem_listing built removed)
    · intro path apart away
      rw [at?_remove_idField nodup away]
      exact Collection.at?_edited_of_incomparable (keyed d only.mem) hv fun edit hedit =>
        apart edit.path (Assignment.touched_of_mem_listing built hedit)

end Update

def sampleLab : Document :=
  [("_id", .string "2"), ("setupname", .string "lab"), ("nodes", .int 3), ("old", .bool true)]

/-- A query for the one name finds both setups: the first has it in an array. -/
def sampleLabs : Collection :=
  ⟨[[("_id", .string "1"), ("setupname", .array [.string "lab"])], sampleLab], Collection.numbered⟩

theorem update_readBack_sample :
    ∃ u summary after, Assignment.update ["nodes=6", "lb.zone=b-1", "nodes=7"] ["old"] = .ok u ∧
      (Collection.updateMany (setupQuery "lab") u).run sampleLabs = (.ok summary, after) ∧
      ∃ shown, (gather sampleFiles ⟨.fixed [], "MASTER_KEY"⟩ "setups.json" { target := some "lab" }).settle
          after.setups = .ok shown ∧
        (∃ v, shown.at? ["nodes"] = some v ∧ v.same (.int 7) = true) ∧ shown.at? ["old"] = none ∧
        shown.at? ["setupname"] = some (.string "lab") := by
  have read : ["nodes=6", "lb.zone=b-1", "nodes=7"].map Assignment.read? =
      [("nodes", .int 6), ("lb.zone", .string "b-1"), ("nodes", .int 7)].map some := by cbv
  have built : Assignment.update ["nodes=6", "lb.zone=b-1", "nodes=7"] ["old"] = .ok
      [("$set", .object [("nodes", .int 7), ("lb.zone", .string "b-1")]), ("$unset", .object [("old", .string "")])] := by
    have pairs := Assignment.readAll_eq_ok_iff.2 read
    simp only [Assignment.update, pairs]
    rfl
  have touched : ∀ p, Touched ["nodes=6", "lb.zone=b-1", "nodes=7"] ["old"] p → p ∈ ["nodes", "lb.zone", "old"] := by
    intro p
    rw [Touched, ← Assignment.mem_keys_iff read]
    simp only [Document.keys, List.map_cons, List.map_nil, List.mem_cons, List.not_mem_nil, or_false]
    tauto
  have keyed : ∀ e ∈ sampleLabs.documents, e.isWellKeyed = true := by decide
  have only : OnlyNamed sampleLabs.documents "lab" sampleLab := by
    refine ⟨[[("_id", .string "1"), ("setupname", .array [.string "lab"])]], [], rfl, rfl, ?_⟩
    intro e he
    rw [List.mem_singleton.1 he]
    rintro ⟨⟩
  have separate : Separate ["nodes=6", "lb.zone=b-1", "nodes=7"] ["old"] := by
    have apart : ∀ p ∈ ["nodes", "lb.zone", "old"], ∀ q ∈ ["nodes", "lb.zone", "old"], p ≠ q → Incomparable p q := by
      decide
    refine ⟨fun p q hp hq => apart p (touched p hp) q (touched q hq), ?_⟩
    intro p removed
    rw [List.mem_singleton.1 removed, ← Assignment.mem_keys_iff read]
    decide
  have away : ∀ p ∈ ["nodes", "lb.zone", "old"], ¬ Within idField p ∧ ¬ Within Setups.nameField p := by decide
  have done : (Collection.updateMany (setupQuery "lab")
      [("$set", .object [("nodes", .int 7), ("lb.zone", .string "b-1")]), ("$unset", .object [("old", .string "")])]).run
        sampleLabs = (.ok ⟨2, 2⟩, _) := rfl
  obtain ⟨-, goes⟩ := update_readBack keyed only separate (fun p hp => away p (touched p hp)) built
  obtain ⟨shown, gathered, assigned, removed, kept⟩ :=
    goes _ _ done sampleFiles ⟨.fixed [], "MASTER_KEY"⟩ "setups.json" none (by decide)
  have last : LastAssigned ["nodes=6", "lb.zone=b-1", "nodes=7"] "nodes" "7" := by
    refine ⟨["nodes=6", "lb.zone=b-1"], "nodes=7", [], rfl, ⟨by decide, by decide⟩, ?_⟩
    rintro ⟨a, none, -⟩
    cases none
  have seven : denoted "7" = .int 7 := by cbv
  have others : ∀ p ∈ ["nodes", "lb.zone", "old"], Incomparable p "setupname" := by decide
  refine ⟨_, _, _, built, done, shown, gathered, ?_, removed "old" List.mem_cons_self, ?_⟩
  · rw [← seven]
    exact assigned "nodes" "7" last
  · exact kept "setupname" (fun p hp => others p (touched p hp)) (by decide)

end TestConfig

end BucketBench
