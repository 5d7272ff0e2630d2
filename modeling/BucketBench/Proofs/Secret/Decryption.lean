import BucketBench.Proofs.Secret.Vault
import Mathlib.Data.List.Forall2

set_option autoImplicit false

namespace BucketBench

open List (Forall₂)

/-- Texts with the first marked ones replaced, as many as there are replacements. -/
def replaceMarked : (plains texts : List String) → List String
  | plain :: more, s :: rest =>
    if Token.isMarked s then plain :: replaceMarked more rest else s :: replaceMarked (plain :: more) rest
  | _, texts => texts

section Replace

variable {s : String} {rest : List String}

theorem replaceMarked_nil (texts : List String) : replaceMarked [] texts = texts := by
  cases texts <;> rfl

theorem replaceMarked_of_plain (plains : List String) (h : Token.isMarked s = false) :
    replaceMarked plains (s :: rest) = s :: replaceMarked plains rest := by
  cases plains with
  | nil => rw [replaceMarked_nil, replaceMarked_nil]
  | cons plain more => simp only [replaceMarked, h, Bool.false_eq_true, if_false]

theorem replaceMarked_of_marked (plain : String) (more : List String) (h : Token.isMarked s = true) :
    replaceMarked (plain :: more) (s :: rest) = plain :: replaceMarked more rest := by
  simp only [replaceMarked, h, if_true]

end Replace

abbrev Token.Hides (key : MasterKey) (token plain : String) : Prop := Token.decrypt key token = .ok plain

/-- Texts opened under a key: all the marked ones, or those in front of the first that does not decrypt. -/
inductive Opened (key : MasterKey) (texts : List String) : Except Error Nat → List String → Prop where
  | all {plains : List String} (each : Forall₂ (Token.Hides key) (texts.filter Token.isMarked) plains) :
      Opened key texts (.ok (texts.filter Token.isMarked).length) (replaceMarked plains texts)
  | upTo {front back plains : List String} {token : String} {fault : Error}
      (split : texts.filter Token.isMarked = front ++ token :: back)
      (each : Forall₂ (Token.Hides key) front plains)
      (fails : Token.decrypt key token = .error fault) : Opened key texts (.error fault) (replaceMarked plains texts)

section Texts

variable {key : MasterKey} {s text : String} {texts rest left : List String} {outcome : Except Error Nat}

theorem Opened.keep (plain : Token.isMarked s = false) (h : Opened key rest outcome left) :
    Opened key (s :: rest) outcome (s :: left) := by
  have same : (s :: rest).filter Token.isMarked = rest.filter Token.isMarked :=
    List.filter_cons_of_neg (by simp [plain])
  cases h with
  | all each =>
    rw [← same] at each ⊢
    rw [← replaceMarked_of_plain _ plain]
    exact .all each
  | upTo split each fails =>
    rw [← replaceMarked_of_plain _ plain]
    exact .upTo (same.trans split) each fails

theorem Opened.replace (marked : Token.isMarked s = true) (h : Token.decrypt key s = .ok text)
    (later : Opened key rest outcome left) : Opened key (s :: rest) (outcome.map (1 + ·)) (text :: left) := by
  have more : (s :: rest).filter Token.isMarked = s :: rest.filter Token.isMarked := List.filter_cons_of_pos marked
  cases later with
  | all each =>
    have count : ((s :: rest).filter Token.isMarked).length = 1 + (rest.filter Token.isMarked).length := by
      rw [more, List.length_cons]
      omega
    rw [Except.map, ← count, ← replaceMarked_of_marked _ _ marked]
    exact .all (more ▸ .cons h each)
  | upTo split each fails =>
    rw [Except.map, ← replaceMarked_of_marked _ _ marked]
    exact .upTo (by rw [more, split]; rfl) (.cons h each) fails

theorem opened_of_decrypts (h : Decrypts key texts outcome left) : Opened key texts outcome left := by
  induction h with
  | nil =>
    have none : Forall₂ (Token.Hides key) ([].filter Token.isMarked) [] := .nil
    exact .all none
  | keep plain _ ih => exact ih.keep plain
  | replace marked h _ ih => exact ih.replace marked h
  | stop rest marked h => exact .upTo (List.filter_cons_of_pos marked) .nil h

theorem decrypts_of_all {plains : List String} (each : Forall₂ (Token.Hides key) (texts.filter Token.isMarked) plains) :
    Decrypts key texts (.ok (texts.filter Token.isMarked).length) (replaceMarked plains texts) := by
  induction texts generalizing plains with
  | nil =>
    cases each
    exact .nil
  | cons s rest ih =>
    cases marked : Token.isMarked s with
    | false =>
      rw [List.filter_cons_of_neg (by simp [marked])] at each ⊢
      rw [replaceMarked_of_plain _ marked]
      exact .keep marked (ih each)
    | true =>
      rw [List.filter_cons_of_pos marked] at each ⊢
      cases each with
      | cons h later =>
        rw [replaceMarked_of_marked _ _ marked, List.length_cons, Nat.add_comm]
        exact .replace marked h (ih later)

theorem decrypts_of_upTo {front back plains : List String} {token : String} {fault : Error}
    (split : texts.filter Token.isMarked = front ++ token :: back)
    (each : Forall₂ (Token.Hides key) front plains)
    (fails : Token.decrypt key token = .error fault) :
    Decrypts key texts (.error fault) (replaceMarked plains texts) := by
  induction texts generalizing front plains with
  | nil => simp at split
  | cons s rest ih =>
    cases marked : Token.isMarked s with
    | false =>
      rw [List.filter_cons_of_neg (by simp [marked])] at split
      rw [replaceMarked_of_plain _ marked]
      exact .keep marked (ih split each)
    | true =>
      rw [List.filter_cons_of_pos marked] at split
      cases each with
      | nil =>
        obtain ⟨rfl, -⟩ := List.cons.inj split
        rw [replaceMarked_nil]
        exact .stop rest marked fails
      | cons h later =>
        obtain ⟨rfl, behind⟩ := List.cons.inj split
        rw [replaceMarked_of_marked _ _ marked]
        exact .replace marked h (ih behind later)

theorem decrypts_iff_opened : Decrypts key texts outcome left ↔ Opened key texts outcome left := by
  refine ⟨opened_of_decrypts, fun h => ?_⟩
  cases h with
  | all each => exact decrypts_of_all each
  | upTo split each fails => exact decrypts_of_upTo split each fails

end Texts

namespace Value

theorem decryptWith_eq_iff {key : MasterKey} {v left : Value} {outcome : Except Error Nat} :
    v.decryptWith key = (outcome, left) ↔ Opened key v.texts outcome left.texts ∧ left.skeleton = v.skeleton := by
  have decrypts := decryptWith_decrypts key v
  constructor
  · intro h
    rw [h] at decrypts
    exact ⟨decrypts_iff_opened.1 decrypts, by rw [← skeleton_decryptWith key v, h]⟩
  · rintro ⟨opened, skeleton⟩
    obtain ⟨outcomes, texts⟩ := decrypts.unique (decrypts_iff_opened.2 opened)
    exact Prod.ext outcomes (eq_of_skeleton_of_texts ((skeleton_decryptWith key v).trans skeleton.symm) texts)

end Value

namespace Vault

variable {vault : Vault} {v left : Value} {outcome : Except Error Nat}

/-- What decrypting a value comes to, and the value that it leaves behind. -/
inductive Leaves (vault : Vault) (v : Value) : Except Error Nat → Value → Prop where
  | unmarked (none : v.texts.filter Token.isMarked = []) : Leaves vault v (.ok 0) v
  | missing {fault : Error} (some : v.texts.filter Token.isMarked ≠ [])
      (h : vault.provider.secret vault.masterKeyId = .error fault) : Leaves vault v (.error fault) v
  | malformed {text : String} {fault : Error} (some : v.texts.filter Token.isMarked ≠ [])
      (h : vault.provider.secret vault.masterKeyId = .ok text) (bad : MasterKey.ofHex text = .error fault) :
      Leaves vault v (.error fault) v
  | opened {text : String} {key : MasterKey} {outcome : Except Error Nat} {left : Value}
      (h : vault.provider.secret vault.masterKeyId = .ok text) (good : MasterKey.ofHex text = .ok key)
      (texts : Opened key v.texts outcome left.texts) (skeleton : left.skeleton = v.skeleton) :
      Leaves vault v outcome left

theorem decryptAll_of_unmarked (none : v.texts.filter Token.isMarked = []) : vault.decryptAll v = (.ok 0, v) := by
  rw [decryptAll, Value.marked_eq, none]
  rfl

theorem decryptAll_of_keyless {fault : Error} (some : v.texts.filter Token.isMarked ≠ [])
    (h : vault.masterKey = .error fault) : vault.decryptAll v = (.error fault, v) := by
  have marked : v.marked.isEmpty = false := by rwa [Value.marked_eq, List.isEmpty_eq_false_iff]
  rw [decryptAll, marked, h]
  rfl

/-- Decrypting a value comes to exactly this. Without marked texts the key does not matter and nothing is done; without
a key its error is returned and nothing is done; with a key the marked texts are replaced in order, all of them or those
in front of the first one that does not decrypt, whose error is returned. Everything else is left as it is: the skeleton
has the keys, their order and all that is no text. -/
theorem decryptAll_eq_iff (vault : Vault) (v left : Value) (outcome : Except Error Nat) :
    vault.decryptAll v = (outcome, left) ↔ vault.Leaves v outcome left := by
  constructor
  · intro h
    by_cases none : v.texts.filter Token.isMarked = []
    · rw [decryptAll_of_unmarked none] at h
      cases h
      exact .unmarked none
    rcases found : vault.provider.secret vault.masterKeyId with fault | text
    · have keyless : vault.masterKey = .error fault := by rw [masterKey, found]; rfl
      rw [decryptAll_of_keyless none keyless] at h
      cases h
      exact .missing none found
    rcases read : MasterKey.ofHex text with fault | key
    · have keyless : vault.masterKey = .error fault := by rw [masterKey, found]; exact read
      rw [decryptAll_of_keyless none keyless] at h
      cases h
      exact .malformed none found read
    · have held : vault.masterKey = .ok key := by rw [masterKey, found]; exact read
      rw [decryptAll_of_key held] at h
      obtain ⟨texts, skeleton⟩ := Value.decryptWith_eq_iff.1 h
      exact .opened found read texts skeleton
  · intro h
    cases h with
    | unmarked none => exact decryptAll_of_unmarked none
    | missing some found => exact decryptAll_of_keyless some (by rw [masterKey, found]; rfl)
    | malformed some found bad => exact decryptAll_of_keyless some (by rw [masterKey, found]; exact bad)
    | opened found good texts skeleton =>
      rw [decryptAll_of_key (by rw [masterKey, found]; exact good)]
      exact Value.decryptWith_eq_iff.2 ⟨texts, skeleton⟩

end Vault

end BucketBench
