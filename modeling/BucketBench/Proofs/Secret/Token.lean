import BucketBench.Proofs.Text.Base64
import BucketBench.Proofs.Text.Blank
import BucketBench.Proofs.Text.Utf8
import BucketBench.Secret.Token

set_option autoImplicit false

/-!
# What reading a token accepts

A token is read exactly when it spells a nonce and what sealing a text under that nonce gives. Blanks around its
base64 text are the only freedom in the spelling, so encrypting the text again under the nonce found in a token
writes the same base64 text.
-/

namespace BucketBench.Token

open Text (AllBlank)

/-- The mark, and behind it, between blanks, the base64 text of a payload. -/
def Spells (token : String) (payload : Bytes) : Prop :=
  ∃ lead tail, AllBlank lead ∧ AllBlank tail ∧ token.toList = mark ++ (lead ++ Base64.encode payload ++ tail)

def payload (key : MasterKey) (nonce : Bytes) (text : String) : Bytes :=
  nonce ++ Gcm.sealText key.bytes nonce (Bytes.ofText text)

theorem afterLead?_eq_some_iff (s rest : List Char) : Text.afterLead? mark s = some rest ↔ s = mark ++ rest :=
  ⟨Text.eq_append_of_afterLead?, fun h => h ▸ Text.afterLead?_append mark rest⟩

theorem decode?_trimChars_eq_some_iff (s : List Char) (payload : Bytes) :
    Base64.decode? (Text.trimChars s) = some payload ↔
      ∃ lead tail, AllBlank lead ∧ AllBlank tail ∧ s = lead ++ Base64.encode payload ++ tail := by
  rw [Base64.decode?_eq_some_iff]
  exact Text.trimChars_eq_iff (fun c => Base64.not_isBlank_of_mem_encode) s

theorem spells_iff (token : String) (payload : Bytes) :
    Spells token payload ↔
      ∃ rest, Text.afterLead? mark token.toList = some rest ∧ Base64.decode? (Text.trimChars rest) = some payload := by
  simp only [afterLead?_eq_some_iff, decode?_trimChars_eq_some_iff]
  constructor
  · rintro ⟨lead, tail, hl, ht, h⟩
    exact ⟨_, h, lead, tail, hl, ht, rfl⟩
  · rintro ⟨_, h, lead, tail, hl, ht, rfl⟩
    exact ⟨lead, tail, hl, ht, h⟩

theorem Spells.unique {token : String} {a b : Bytes} (ha : Spells token a) (hb : Spells token b) : a = b := by
  obtain ⟨rest, hr, ha⟩ := (spells_iff token a).1 ha
  obtain ⟨rest', hr', hb⟩ := (spells_iff token b).1 hb
  obtain rfl : rest = rest' := Option.some.inj (hr.symm.trans hr')
  exact Option.some.inj (ha.symm.trans hb)

theorem spells_encrypt (key : MasterKey) (nonce : Bytes) (text : String) :
    Spells (encrypt key nonce text) (payload key nonce text) := by
  refine ⟨[], [], List.forall_mem_nil _, List.forall_mem_nil _, ?_⟩
  simp [encrypt, payload]

/-- What there is to say of a token, in the order in which reading finds it out. -/
inductive Reads (key : MasterKey) (token : String) : Except SecretFault String → Prop where
  | notAToken (unmarked : ∀ rest, token.toList ≠ mark ++ rest) : Reads key token (.error .notAToken)
  | notBase64 {rest : List Char} (marked : token.toList = mark ++ rest)
      (none : ∀ payload, ¬ Spells token payload) : Reads key token (.error .notBase64)
  | tooShort {payload : Bytes} (spells : Spells token payload) (short : payload.length ≤ nonceSize) :
      Reads key token (.error .tooShort)
  | notAuthentic {nonce sealed : Bytes} (spells : Spells token (nonce ++ sealed)) (size : nonce.length = nonceSize)
      (forged : ∀ bytes, sealed ≠ Gcm.sealText key.bytes nonce bytes) : Reads key token (.error .notAuthentic)
  | notText {nonce bytes : Bytes} (spells : Spells token (nonce ++ Gcm.sealText key.bytes nonce bytes))
      (size : nonce.length = nonceSize) (noText : ∀ text, bytes ≠ Bytes.ofText text) :
      Reads key token (.error .notText)
  | text {nonce : Bytes} {text : String} (spells : Spells token (payload key nonce text))
      (size : nonce.length = nonceSize) : Reads key token (.ok text)

theorem decrypt_of_spells (key : MasterKey) {token : String} {nonce sealed : Bytes}
    (size : nonce.length = nonceSize) (nonempty : sealed ≠ []) (h : Spells token (nonce ++ sealed)) :
    decrypt key token =
      match (Gcm.unseal? key.bytes nonce sealed).map Bytes.text? with
      | none => .error (.secret .notAuthentic)
      | some none => .error (.secret .notText)
      | some (some text) => .ok text := by
  obtain ⟨rest, marked, read⟩ := (spells_iff token _).1 h
  have long : ¬ (nonce ++ sealed).length ≤ nonceSize := by
    have positive := List.length_pos_iff.2 nonempty
    simp only [List.length_append]
    omega
  rw [decrypt, marked]
  simp only [read, if_neg long]
  rw [List.take_left' size, List.drop_left' size]
  cases Gcm.unseal? key.bytes nonce sealed with
  | none => rfl
  | some bytes =>
    simp only [Option.map_some]
    cases Bytes.text? bytes <;> rfl

theorem exists_reads_of_sealed (key : MasterKey) {token : String} {nonce sealed : Bytes}
    (size : nonce.length = nonceSize) (nonempty : sealed ≠ []) (spells : Spells token (nonce ++ sealed)) :
    ∃ r, Reads key token r ∧ decrypt key token = r.mapError .secret := by
  have run := decrypt_of_spells key size nonempty spells
  cases opened : Gcm.unseal? key.bytes nonce sealed with
  | none =>
    refine ⟨_, .notAuthentic spells size ?_, by rw [run, opened]; rfl⟩
    intro bytes h
    rw [(Gcm.unseal?_eq_some_iff _ _ _ _).2 h] at opened
    cases opened
  | some bytes =>
    obtain rfl := (Gcm.unseal?_eq_some_iff _ _ _ _).1 opened
    cases decoded : Bytes.text? bytes with
    | none =>
      refine ⟨_, .notText spells size ?_, by rw [run, opened, Option.map_some, decoded]; rfl⟩
      intro text h
      rw [(Bytes.text?_eq_some_iff bytes text).2 h] at decoded
      cases decoded
    | some text =>
      obtain rfl := (Bytes.text?_eq_some_iff bytes text).1 decoded
      exact ⟨_, .text spells size, by rw [run, opened, Option.map_some, decoded]; rfl⟩

/-- One of these is said of every token, and reading it comes to just that: a failure is always one of the secret. -/
theorem exists_reads (key : MasterKey) (token : String) :
    ∃ r, Reads key token r ∧ decrypt key token = r.mapError .secret := by
  cases marked : Text.afterLead? mark token.toList with
  | none =>
    refine ⟨_, .notAToken ?_, by rw [decrypt, marked]; rfl⟩
    intro rest h
    rw [(afterLead?_eq_some_iff _ rest).2 h] at marked
    cases marked
  | some rest =>
    cases read : Base64.decode? (Text.trimChars rest) with
    | none =>
      have marked' := (afterLead?_eq_some_iff _ rest).1 marked
      refine ⟨_, .notBase64 marked' ?_, by rw [decrypt, marked]; simp only [read]; rfl⟩
      intro payload h
      obtain ⟨rest', marked', read'⟩ := (spells_iff token payload).1 h
      obtain rfl : rest = rest' := Option.some.inj (marked.symm.trans marked')
      rw [read] at read'
      cases read'
    | some payload =>
      have spells : Spells token payload := (spells_iff token payload).2 ⟨rest, marked, read⟩
      by_cases short : payload.length ≤ nonceSize
      · exact ⟨_, .tooShort spells short, by rw [decrypt, marked]; simp only [read, if_pos short]; rfl⟩
      · have size : (payload.take nonceSize).length = nonceSize := by
          rw [List.length_take]
          omega
        have nonempty : payload.drop nonceSize ≠ [] := fun e => short (List.drop_eq_nil_iff.1 e)
        rw [← List.take_append_drop nonceSize payload] at spells
        exact exists_reads_of_sealed key size nonempty spells

theorem length_sealText (key nonce text : Bytes) : (Gcm.sealText key nonce text).length = text.length + 16 := by
  simp [Gcm.sealText, Gcm.sealWith, Gcm.length_crypt, Gcm.length_tag]

theorem spells_of_reads {key : MasterKey} {token text : String} (h : Reads key token (.ok text)) :
    ∃ nonce, nonce.length = nonceSize ∧ Spells token (payload key nonce text) := by
  cases h with
  | text spells size => exact ⟨_, size, spells⟩

theorem decrypt_eq_ok_iff (key : MasterKey) (token text : String) :
    decrypt key token = .ok text ↔ ∃ nonce, nonce.length = nonceSize ∧ Spells token (payload key nonce text) := by
  constructor
  · intro h
    obtain ⟨r, reads, run⟩ := exists_reads key token
    rw [h] at run
    cases r with
    | error fault => cases run
    | ok text' =>
      cases run
      exact spells_of_reads reads
  · rintro ⟨nonce, size, spells⟩
    have nonempty : Gcm.sealText key.bytes nonce (Bytes.ofText text) ≠ [] := by
      apply List.ne_nil_of_length_pos
      rw [length_sealText]
      omega
    rw [decrypt_of_spells key size nonempty spells, (Gcm.unseal?_eq_some_iff _ _ _ _).2 rfl, Option.map_some,
      Bytes.text?_ofText]

/-- Reading and writing tokens under one key. A token is read as a text exactly when it spells, with blanks at most
around its base64 text, some nonce and the text sealed under it; so a written token is read back, writing the text
again under the nonce in a token gives the same base64 text, and every other token fails with the fault that
describes it. -/
theorem decrypt_accepts_exactly (key : MasterKey) :
    (∀ token text, decrypt key token = .ok text ↔
      ∃ nonce, nonce.length = nonceSize ∧ Spells token (payload key nonce text)) ∧
    (∀ nonce text, nonce.length = nonceSize → decrypt key (encrypt key nonce text) = .ok text) ∧
    (∀ token text found, decrypt key token = .ok text → Spells token found →
      encrypt key (found.take nonceSize) text = String.ofList (mark ++ Base64.encode found)) ∧
    ∀ token, (∀ nonce text, nonce.length = nonceSize → ¬ Spells token (payload key nonce text)) →
      ∃ fault, Reads key token (.error fault) ∧ decrypt key token = .error (.secret fault) := by
  refine ⟨decrypt_eq_ok_iff key, ?_, ?_, ?_⟩
  · intro nonce text size
    exact (decrypt_eq_ok_iff key _ text).2 ⟨nonce, size, spells_encrypt key nonce text⟩
  · intro token text found h spells
    obtain ⟨nonce, size, spells'⟩ := (decrypt_eq_ok_iff key token text).1 h
    obtain rfl := spells.unique spells'
    rw [payload, List.take_left' size]
    rfl
  · intro token none
    obtain ⟨r, reads, run⟩ := exists_reads key token
    cases r with
    | error fault => exact ⟨fault, reads, run⟩
    | ok text =>
      obtain ⟨nonce, size, spells⟩ : ∃ nonce, nonce.length = nonceSize ∧ Spells token (payload key nonce text) :=
        spells_of_reads reads
      exact absurd spells (none nonce text size)

section Sample

def sampleKey : MasterKey := ⟨List.replicate 32 0x42, rfl⟩

def sampleNonce : Bytes := [0, 1, 2, 3, 4, 5, 6, 7, 8, 9, 10, 11]

def samplePayload : Bytes := payload sampleKey sampleNonce ""

def sampleToken : String := String.ofList (mark ++ ([' '] ++ Base64.encode samplePayload ++ ['\n']))

theorem spells_sampleToken : Spells sampleToken samplePayload :=
  ⟨[' '], ['\n'], List.forall_mem_singleton.2 (by decide), List.forall_mem_singleton.2 (by decide), String.toList_ofList⟩

theorem not_spells_unmarked (payload : Bytes) : ¬ Spells "plain" payload := by
  rintro ⟨lead, tail, -, -, h⟩
  have first := congrArg List.head? h
  simp [mark] at first

theorem decrypt_accepts_exactly_sampleToken :
    decrypt sampleKey sampleToken = .ok "" ∧ decrypt sampleKey (encrypt sampleKey sampleNonce "") = .ok "" ∧
      encrypt sampleKey sampleNonce "" = String.ofList (mark ++ Base64.encode samplePayload) ∧
      ∃ fault, Reads sampleKey "plain" (.error fault) ∧ decrypt sampleKey "plain" = .error (.secret fault) := by
  obtain ⟨accepted, written, again, refused⟩ := decrypt_accepts_exactly sampleKey
  have read : decrypt sampleKey sampleToken = .ok "" := (accepted _ _).2 ⟨sampleNonce, rfl, spells_sampleToken⟩
  have found : samplePayload.take nonceSize = sampleNonce := List.take_left' rfl
  have same := again sampleToken "" samplePayload read spells_sampleToken
  rw [found] at same
  exact ⟨read, written sampleNonce "" rfl, same, refused "plain" fun _ _ _ => not_spells_unmarked _⟩

end Sample

end BucketBench.Token
