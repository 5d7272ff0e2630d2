import BucketBench.Proofs.Json.Texts
import BucketBench.Proofs.Outcome
import BucketBench.Proofs.Secret.Token
import BucketBench.Secret.Vault

set_option autoImplicit false

/-!
# Hiding texts and finding them again

Decrypting a value goes over its texts in order and leaves the rest of it alone. So when texts of a value are
replaced by tokens, all those among them that look like tokens themselves, decrypting gives the value back.
-/

namespace BucketBench

/-! ## Decrypting texts in order -/

inductive Decrypts (key : MasterKey) : List String → Except Error Nat → List String → Prop where
  | nil : Decrypts key [] (.ok 0) []
  | keep {s : String} {rest left : List String} {r : Except Error Nat} (plain : Token.isMarked s = false)
      (more : Decrypts key rest r left) : Decrypts key (s :: rest) r (s :: left)
  | replace {s text : String} {rest left : List String} {r : Except Error Nat} (marked : Token.isMarked s = true)
      (h : Token.decrypt key s = .ok text) (more : Decrypts key rest r left) :
      Decrypts key (s :: rest) (r.map (1 + ·)) (text :: left)
  | stop {s : String} {e : Error} (rest : List String) (marked : Token.isMarked s = true)
      (h : Token.decrypt key s = .error e) : Decrypts key (s :: rest) (.error e) (s :: rest)

namespace Decrypts

variable {key : MasterKey} {texts rest left left' : List String}

theorem append_of_error {e : Error} (h : Decrypts key texts (.error e) left) (rest : List String) :
    Decrypts key (texts ++ rest) (.error e) (left ++ rest) := by
  generalize hr : (Except.error e : Except Error Nat) = r at h
  induction h with
  | nil => cases hr
  | keep plain _ ih => exact .keep plain (ih hr)
  | @replace s text more left r marked h _ ih =>
    cases r with
    | ok n => cases hr
    | error e' =>
      cases hr
      exact .replace marked h (ih rfl)
  | stop more marked h => exact .stop (more ++ rest) marked h

theorem append_of_ok {n : Nat} {r : Except Error Nat} (h : Decrypts key texts (.ok n) left)
    (h' : Decrypts key rest r left') : Decrypts key (texts ++ rest) (r.map (n + ·)) (left ++ left') := by
  generalize ht : (Except.ok n : Except Error Nat) = t at h
  induction h generalizing n with
  | nil =>
    cases ht
    have same : r.map (0 + ·) = r := by cases r <;> simp [Except.map]
    rwa [same]
  | keep plain _ ih => exact .keep plain (ih ht)
  | @replace s text more left t marked h _ ih =>
    cases t with
    | error e => cases ht
    | ok m =>
      cases ht
      have same : (r.map (m + ·)).map (1 + ·) = r.map (1 + m + ·) := by cases r <;> simp [Except.map, Nat.add_assoc]
      rw [← same]
      exact .replace marked h (ih rfl)
  | stop => cases ht

theorem unique {r r' : Except Error Nat} (h : Decrypts key texts r left) (h' : Decrypts key texts r' left') :
    r = r' ∧ left = left' := by
  induction h generalizing r' left' with
  | nil =>
    cases h'
    exact ⟨rfl, rfl⟩
  | keep plain _ ih =>
    cases h' with
    | keep _ more =>
      obtain ⟨rfl, rfl⟩ := ih more
      exact ⟨rfl, rfl⟩
    | replace marked | stop _ marked => exact absurd marked (by simp [plain])
  | replace marked h _ ih =>
    cases h' with
    | keep plain => exact absurd marked (by simp [plain])
    | replace _ h' more =>
      obtain ⟨rfl, rfl⟩ := ih more
      obtain rfl := Except.ok.inj (h.symm.trans h')
      exact ⟨rfl, rfl⟩
    | stop _ _ h' => cases h.symm.trans h'
  | stop _ marked h =>
    cases h' with
    | keep plain => exact absurd marked (by simp [plain])
    | replace _ h' => cases h.symm.trans h'
    | stop _ _ h' =>
      cases h.symm.trans h'
      exact ⟨rfl, rfl⟩

end Decrypts

namespace Value

variable {key : MasterKey}

theorem decryptMembers_eq (key : MasterKey) (members : Document) :
    (decryptMembers key members).1 = (decryptItems key members.values).1 ∧
      (decryptMembers key members).2.keys = members.keys ∧
      (decryptMembers key members).2.values = (decryptItems key members.values).2 := by
  induction members with
  | nil => exact ⟨rfl, rfl, rfl⟩
  | cons m rest ih =>
    obtain ⟨k, v⟩ := m
    obtain ⟨outcome, keys, values⟩ := ih
    simp only [Document.keys, Document.values, List.map_cons] at *
    rw [decryptMembers, decryptItems]
    rcases decryptWith key v with ⟨e | n, v'⟩
    · exact ⟨rfl, rfl, rfl⟩
    · exact ⟨congrArg (Except.map (n + ·)) outcome, congrArg (k :: ·) keys, congrArg (v' :: ·) values⟩

theorem decryptItems_decrypts {items : List Value}
    (each : ∀ v ∈ items, Decrypts key v.texts (decryptWith key v).1 (decryptWith key v).2.texts) :
    Decrypts key (items.flatMap texts) (decryptItems key items).1 ((decryptItems key items).2.flatMap texts) := by
  induction items with
  | nil => exact .nil
  | cons v rest ih =>
    have first := each v List.mem_cons_self
    have later := ih fun w hw => each w (List.mem_cons_of_mem _ hw)
    rw [decryptItems, List.flatMap_cons]
    rcases h : decryptWith key v with ⟨e | n, v'⟩
    · rw [h] at first
      exact first.append_of_error _
    · rw [h] at first
      exact first.append_of_ok later

/-- Decrypting a value is decrypting its texts. -/
theorem decryptWith_decrypts (key : MasterKey) (v : Value) :
    Decrypts key v.texts (decryptWith key v).1 (decryptWith key v).2.texts := by
  induction v using Value.induct with
  | string s =>
    cases marked : Token.isMarked s with
    | false => simpa only [decryptWith, marked] using .keep marked .nil
    | true =>
      cases h : Token.decrypt key s with
      | error e => simpa only [decryptWith, marked, h] using .stop [] marked h
      | ok text => simpa only [decryptWith, marked, h] using .replace marked h .nil
  | array items ih =>
    have all := decryptItems_decrypts ih
    simpa only [decryptWith, texts, textsOfItems_eq] using all
  | object members ih =>
    have each : ∀ v ∈ members.values, Decrypts key v.texts (decryptWith key v).1 (decryptWith key v).2.texts :=
      List.forall_mem_map.2 ih
    have all := decryptItems_decrypts each
    obtain ⟨outcome, -, values⟩ := decryptMembers_eq key members
    rw [← outcome, ← values] at all
    simpa only [decryptWith, texts, textsOfMembers_eq] using all
  | _ => exact .nil

theorem skeleton_decryptItems {items : List Value}
    (each : ∀ v ∈ items, (decryptWith key v).2.skeleton = v.skeleton) :
    (decryptItems key items).2.map skeleton = items.map skeleton := by
  induction items with
  | nil => rfl
  | cons v rest ih =>
    have first := each v List.mem_cons_self
    have later := ih fun w hw => each w (List.mem_cons_of_mem _ hw)
    rw [decryptItems]
    rcases h : decryptWith key v with ⟨e | n, v'⟩
    · rw [h] at first
      rw [List.map_cons, List.map_cons, first]
    · rw [h] at first
      rw [List.map_cons, List.map_cons, first, later]

/-- Decrypting leaves everything but texts as it is, the keys of objects too, whether it succeeds or not. -/
theorem skeleton_decryptWith (key : MasterKey) (v : Value) : (decryptWith key v).2.skeleton = v.skeleton := by
  induction v using Value.induct with
  | string s =>
    rw [decryptWith]
    split
    · split <;> rfl
    · rfl
  | array items ih =>
    have all := skeleton_decryptItems ih
    rw [decryptWith, skeleton, skeleton, skeletonOfItems_eq, skeletonOfItems_eq, all]
  | object members ih =>
    have each : ∀ v ∈ members.values, (decryptWith key v).2.skeleton = v.skeleton := List.forall_mem_map.2 ih
    have all := skeleton_decryptItems each
    obtain ⟨-, keys, values⟩ := decryptMembers_eq key members
    exact (skeleton_object_eq_iff _ _).2 ⟨keys, by rw [values, all]⟩
  | _ => rfl

theorem markedItems_eq {items : List Value} (each : ∀ v ∈ items, v.marked = v.texts.filter Token.isMarked) :
    markedItems items = (items.flatMap texts).filter Token.isMarked := by
  induction items with
  | nil => rfl
  | cons v rest ih =>
    have later := ih fun w hw => each w (List.mem_cons_of_mem _ hw)
    rw [markedItems, each v List.mem_cons_self, later, List.flatMap_cons, List.filter_append]

theorem markedMembers_eq (members : Document) : markedMembers members = markedItems members.values := by
  induction members with
  | nil => rfl
  | cons m rest ih =>
    obtain ⟨k, v⟩ := m
    rw [markedMembers, ih]
    rfl

/-- The two walks over a value agree on what is marked. -/
theorem marked_eq (v : Value) : v.marked = v.texts.filter Token.isMarked := by
  induction v using Value.induct with
  | string s => cases marked : Token.isMarked s <;> simp [Value.marked, texts, marked]
  | array items ih => rw [Value.marked, texts, textsOfItems_eq, markedItems_eq ih]
  | object members ih =>
    have each : ∀ v ∈ members.values, v.marked = v.texts.filter Token.isMarked := List.forall_mem_map.2 ih
    rw [Value.marked, texts, textsOfMembers_eq, markedMembers_eq, markedItems_eq each]
  | _ => rfl

end Value

theorem Decrypts.eq_of_plain {key : MasterKey} {texts left : List String} {r : Except Error Nat}
    (h : Decrypts key texts r left) (plain : texts.filter Token.isMarked = []) : r = .ok 0 ∧ left = texts := by
  rw [List.filter_eq_nil_iff] at plain
  induction h with
  | nil => exact ⟨rfl, rfl⟩
  | keep _ _ ih =>
    obtain ⟨outcome, rfl⟩ := ih fun s hs => plain s (List.mem_cons_of_mem _ hs)
    exact ⟨outcome, rfl⟩
  | replace marked | stop _ marked => exact absurd marked (plain _ List.mem_cons_self)

namespace Vault

theorem decryptAll_of_key {vault : Vault} {key : MasterKey} (h : vault.masterKey = .ok key) (v : Value) :
    vault.decryptAll v = v.decryptWith key := by
  unfold decryptAll
  split
  · rename_i none
    -- the key is not asked for when nothing is marked, and with it nothing would have changed
    rw [List.isEmpty_iff, Value.marked_eq] at none
    obtain ⟨outcome, texts⟩ := (Value.decryptWith_decrypts key v).eq_of_plain none
    have same := Value.eq_of_skeleton_of_texts (Value.skeleton_decryptWith key v) texts
    exact (Prod.ext outcome same).symm
  · rw [h]

theorem skeleton_decryptAll (vault : Vault) (v : Value) : (vault.decryptAll v).2.skeleton = v.skeleton := by
  unfold decryptAll
  split
  · rfl
  · split
    · rfl
    · exact Value.skeleton_decryptWith _ v

/-! ## Hiding texts -/

/-- Which texts of a value to hide, in order, and the nonce for each of them. Those that are marked are among them. -/
structure Selection (d : Value) where
  nonces : List (Option Bytes)
  length : nonces.length = d.texts.length
  sized : ∀ nonce, some nonce ∈ nonces → nonce.length = Token.nonceSize
  covers : ∀ c ∈ d.texts.zip nonces, Token.isMarked c.1 = true → c.2.isSome = true

def Selection.count {d : Value} (s : Selection d) : Nat := s.nonces.countP Option.isSome

def hideTexts (vault : Vault) : List (Option Bytes) → List String → Except Error (List String)
  | some nonce :: nonces, s :: rest => do
    let token ← vault.encrypt nonce s
    return token :: (← hideTexts vault nonces rest)
  | none :: nonces, s :: rest => do return s :: (← hideTexts vault nonces rest)
  | _, texts => .ok texts

/-- A value is another one with the selected texts replaced by what the vault encrypts them to. -/
structure Hides (vault : Vault) {d : Value} (s : Selection d) (hidden : Value) : Prop where
  skeleton : hidden.skeleton = d.skeleton
  texts : vault.hideTexts s.nonces d.texts = .ok hidden.texts

variable {vault : Vault} {key : MasterKey} {nonces : List (Option Bytes)} {texts tokens : List String}

theorem encrypt_of_key (h : vault.masterKey = .ok key) (nonce : Bytes) (text : String) :
    vault.encrypt nonce text = .ok (Token.encrypt key nonce text) := by
  rw [encrypt, h]
  rfl

theorem isMarked_encrypt (key : MasterKey) (nonce : Bytes) (text : String) :
    Token.isMarked (Token.encrypt key nonce text) = true := by
  rw [Token.isMarked, Token.encrypt, String.toList_ofList, Text.afterLead?_append]
  rfl

theorem decrypt_encrypt (key : MasterKey) {nonce : Bytes} (size : nonce.length = Token.nonceSize) (text : String) :
    Token.decrypt key (Token.encrypt key nonce text) = .ok text :=
  (Token.decrypt_eq_ok_iff key _ text).2 ⟨nonce, size, Token.spells_encrypt key nonce text⟩

theorem hideTexts_nil (vault : Vault) (nonces : List (Option Bytes)) : vault.hideTexts nonces [] = .ok [] := by
  rcases nonces with _ | ⟨_ | nonce, more⟩ <;> rfl

theorem exists_hideTexts (h : vault.masterKey = .ok key) (nonces : List (Option Bytes)) (texts : List String) :
    ∃ tokens, vault.hideTexts nonces texts = .ok tokens ∧ tokens.length = texts.length := by
  induction texts generalizing nonces with
  | nil => exact ⟨[], hideTexts_nil vault nonces, rfl⟩
  | cons s rest ih =>
    match nonces with
    | [] => exact ⟨s :: rest, rfl, rfl⟩
    | none :: more =>
      obtain ⟨tokens, run, length⟩ := ih more
      exact ⟨s :: tokens, by rw [hideTexts, run]; rfl, congrArg (· + 1) length⟩
    | some nonce :: more =>
      obtain ⟨tokens, run, length⟩ := ih more
      exact ⟨Token.encrypt key nonce s :: tokens, by rw [hideTexts, encrypt_of_key h, run]; rfl, congrArg (· + 1) length⟩

theorem hideTexts_of_none (none : nonces.countP Option.isSome = 0) : vault.hideTexts nonces texts = .ok texts := by
  induction texts generalizing nonces with
  | nil => exact hideTexts_nil vault nonces
  | cons s rest ih =>
    match nonces with
    | [] => rfl
    | .none :: more =>
      rw [hideTexts, ih (by simpa using none)]
      rfl
    | some nonce :: more => simp at none

/-- Without a key only hiding nothing succeeds. -/
theorem masterKey_of_hideTexts (length : nonces.length = texts.length)
    (h : vault.hideTexts nonces texts = .ok tokens) :
    nonces.countP Option.isSome = 0 ∨ ∃ key, vault.masterKey = .ok key := by
  induction texts generalizing nonces tokens with
  | nil => exact .inl (by rw [List.eq_nil_of_length_eq_zero length, List.countP_nil])
  | cons s rest ih =>
    match nonces with
    | [] => simp at length
    | none :: more =>
      rw [hideTexts, bind_eq_ok_iff] at h
      obtain ⟨later, run, -⟩ := h
      simpa using ih (by simpa using length) run
    | some nonce :: more =>
      rw [hideTexts, bind_eq_ok_iff] at h
      obtain ⟨token, run, -⟩ := h
      rw [encrypt, bind_eq_ok_iff] at run
      obtain ⟨key, found, -⟩ := run
      exact .inr ⟨key, found⟩

/-- What is hidden is found again, each token by itself: the texts that are left out are not marked, and a text that
comes out of a token is not looked at again. -/
theorem decrypts_hideTexts (h : vault.masterKey = .ok key) (length : nonces.length = texts.length)
    (sized : ∀ nonce, some nonce ∈ nonces → nonce.length = Token.nonceSize)
    (covers : ∀ c ∈ texts.zip nonces, Token.isMarked c.1 = true → c.2.isSome = true)
    (run : vault.hideTexts nonces texts = .ok tokens) :
    Decrypts key tokens (.ok (nonces.countP Option.isSome)) texts := by
  induction texts generalizing nonces tokens with
  | nil =>
    obtain rfl := List.eq_nil_of_length_eq_zero length
    cases run
    exact .nil
  | cons s rest ih =>
    match nonces with
    | [] => simp at length
    | n :: more =>
      have length' : more.length = rest.length := by simpa using length
      have sized' : ∀ nonce, some nonce ∈ more → nonce.length = Token.nonceSize :=
        fun nonce hn => sized nonce (List.mem_cons_of_mem _ hn)
      have covers' : ∀ c ∈ rest.zip more, Token.isMarked c.1 = true → c.2.isSome = true :=
        fun c hc => covers c (List.mem_cons_of_mem _ hc)
      have first := covers (s, n) List.mem_cons_self
      obtain ⟨tokens', run', -⟩ := exists_hideTexts h more rest
      have later := ih length' sized' covers' run'
      cases n with
      | none =>
        rw [hideTexts, run'] at run
        cases run
        exact .keep (by simpa using first) later
      | some nonce =>
        rw [hideTexts, encrypt_of_key h, run'] at run
        cases run
        have back := decrypt_encrypt key (sized nonce List.mem_cons_self) s
        have all := Decrypts.replace (isMarked_encrypt key nonce s) back later
        simpa [Except.map, Nat.add_comm] using all

variable {d hidden : Value} {s : Selection d}

theorem exists_hides (h : s.count = 0 ∨ ∃ key, vault.masterKey = .ok key) : ∃ hidden, vault.Hides s hidden := by
  obtain none | ⟨key, found⟩ := h
  · exact ⟨d, rfl, hideTexts_of_none none⟩
  · obtain ⟨tokens, run, length⟩ := exists_hideTexts found s.nonces d.texts
    obtain ⟨hidden, same, rfl⟩ := d.exists_of_texts length
    exact ⟨hidden, same, run⟩

theorem Hides.eq_of_none (h : vault.Hides s hidden) (none : s.count = 0) : hidden = d := by
  have texts := h.texts
  rw [hideTexts_of_none none] at texts
  exact Value.eq_of_skeleton_of_texts h.skeleton (Except.ok.inj texts).symm

theorem Hides.decryptAll_of_key (h : vault.Hides s hidden) (found : vault.masterKey = .ok key) :
    vault.decryptAll hidden = (.ok s.count, d) := by
  have back := decrypts_hideTexts found s.length s.sized s.covers h.texts
  -- the walk over the value decrypts the same texts, and there is one way only for that to end
  obtain ⟨outcome, texts⟩ := (Value.decryptWith_decrypts key hidden).unique back
  have skeleton := (Value.skeleton_decryptWith key hidden).trans h.skeleton
  rw [Vault.decryptAll_of_key found]
  exact Prod.ext outcome (Value.eq_of_skeleton_of_texts skeleton texts)

theorem Hides.decryptAll_of_none (h : vault.Hides s hidden) (none : s.count = 0) :
    vault.decryptAll hidden = (.ok s.count, d) := by
  obtain rfl := h.eq_of_none none
  have plain : hidden.marked = [] := by
    rw [Value.marked_eq, List.filter_eq_nil_iff]
    intro text ht marked
    obtain ⟨i, hi, rfl⟩ := List.mem_iff_getElem.1 ht
    have hi' : i < s.nonces.length := s.length ▸ hi
    have pair : (hidden.texts[i], s.nonces[i]) ∈ hidden.texts.zip s.nonces :=
      List.mem_iff_getElem.2 ⟨i, by rw [List.length_zip]; omega, List.getElem_zip⟩
    have chosen := s.covers _ pair marked
    exact List.countP_eq_zero.1 none _ (List.getElem_mem hi') chosen
  simp [decryptAll, plain, none]

/-- Hiding texts of a value and decrypting gives the value back, with the number of texts that were hidden, whatever
the nonces; and decrypting changes nothing but texts, so keys stay even where they look like tokens. Texts can be
hidden exactly when the key is there or there are none to hide. -/
theorem decryptAll_hidden (vault : Vault) (d : Value) (s : Selection d) :
    ((∃ hidden, vault.Hides s hidden) ↔ s.count = 0 ∨ ∃ key, vault.masterKey = .ok key) ∧
    (∀ hidden, vault.Hides s hidden → vault.decryptAll hidden = (.ok s.count, d)) ∧
    ∀ v, (vault.decryptAll v).2.skeleton = v.skeleton := by
  have possible : ∀ hidden, vault.Hides s hidden → s.count = 0 ∨ ∃ key, vault.masterKey = .ok key :=
    fun hidden h => masterKey_of_hideTexts s.length h.texts
  refine ⟨⟨fun ⟨hidden, h⟩ => possible hidden h, exists_hides⟩, ?_, skeleton_decryptAll vault⟩
  intro hidden h
  obtain none | ⟨key, found⟩ := possible hidden h
  · exact h.decryptAll_of_none none
  · exact h.decryptAll_of_key found

/-! ## Two texts out of three -/

section Sample

def sampleVault : Vault := ⟨.fixed [("master", String.ofList (List.replicate 64 '4'))], "master"⟩

def sampleVaultKey : MasterKey := ⟨List.replicate 32 0x44, rfl⟩

def sampleSettings : Value :=
  .object [("enc:key", .array [.string "enc:text", .string "left", .object [("password", .string "secret")]])]

def sampleSelection : Selection sampleSettings where
  nonces := [some (List.replicate 12 1), none, some (List.replicate 12 2)]
  length := rfl
  sized := by simp [Token.nonceSize]
  covers := by simp [sampleSettings, Value.texts, Value.textsOfItems, Value.textsOfMembers]; decide

def sampleHidden : Value :=
  .object [("enc:key", .array [.string (Token.encrypt sampleVaultKey (List.replicate 12 1) "enc:text"), .string "left",
    .object [("password", .string (Token.encrypt sampleVaultKey (List.replicate 12 2) "secret"))]])]

theorem masterKey_sampleVault : sampleVault.masterKey = .ok sampleVaultKey := by
  simp [masterKey, sampleVault, SecretProvider.fixed, MasterKey.ofHex]
  rfl

theorem texts_sampleHidden : sampleHidden.texts =
    [Token.encrypt sampleVaultKey (List.replicate 12 1) "enc:text", "left",
      Token.encrypt sampleVaultKey (List.replicate 12 2) "secret"] := by
  simp only [sampleHidden, Value.texts, Value.textsOfItems, Value.textsOfMembers, List.cons_append, List.nil_append]

theorem hides_sampleHidden : sampleVault.Hides sampleSelection sampleHidden where
  skeleton := by simp only [sampleHidden, sampleSettings, Value.skeleton, Value.skeletonOfItems, Value.skeletonOfMembers]
  texts := by
    rw [texts_sampleHidden]
    show hideTexts _ [some _, none, some _] ["enc:text", "left", "secret"] = _
    simp only [hideTexts, encrypt_of_key masterKey_sampleVault, bind, Except.bind, pure, Except.pure]

theorem decryptAll_hidden_sampleHidden :
    sampleVault.Hides sampleSelection sampleHidden ∧
      sampleVault.decryptAll sampleHidden = (.ok 2, sampleSettings) :=
  ⟨hides_sampleHidden, (decryptAll_hidden sampleVault sampleSettings sampleSelection).2.1 _ hides_sampleHidden⟩

end Sample

end Vault

end BucketBench
