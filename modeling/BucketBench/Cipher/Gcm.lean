import BucketBench.Cipher.Aes

set_option autoImplicit false

/-!
# Authenticated encryption in counter mode

`sealText` encrypts a text under a key and a twelve-byte nonce and appends a sixteen-byte tag; `unseal?` gives the
text back when the tag is the right one. The two are exact inverses: `unseal?_eq_some_iff`.
-/

namespace BucketBench.Gcm

/-- The bytes of a number, the most significant first. -/
def bigEndian (size n : Nat) : Bytes := (List.range size).map fun i => (n / Nat.pow 256 (size - 1 - i)).toUInt8

def ofBigEndian (bytes : Bytes) : Nat := bytes.foldl (fun n b => 256 * n + b.toNat) 0

def counterBlock (nonce : Bytes) (counter : Nat) : Bytes := nonce ++ bigEndian 4 counter

/-- A text combined with a mask; where the mask ends, the text stays as it is. -/
def veil : (mask text : Bytes) → Bytes
  | _, [] => []
  | [], text => text
  | m :: mask, t :: text => (m ^^^ t) :: veil mask text

theorem veil_veil (mask text : Bytes) : veil mask (veil mask text) = text := by
  induction text generalizing mask with
  | nil => cases mask <;> rfl
  | cons t text ih =>
    cases mask with
    | nil => rfl
    | cons m mask => simp only [veil, ih, ← UInt8.xor_assoc, UInt8.xor_self, UInt8.zero_xor]

theorem length_veil (mask text : Bytes) : (veil mask text).length = text.length := by
  induction text generalizing mask with
  | nil => cases mask <;> rfl
  | cons t text ih => cases mask <;> simp [veil, ih]

def blockCount (text : Bytes) : Nat := (text.length + 15) / 16

/-- The first `count` blocks of a text, each combined with the enciphered counter. -/
def cryptBlocks (encipher : Bytes → Bytes) (nonce : Bytes) : (count counter : Nat) → Bytes → Bytes
  | 0, _, text => text
  | count + 1, counter, text =>
    veil (encipher (counterBlock nonce counter)) (text.take 16)
      ++ cryptBlocks encipher nonce count (counter + 1) (text.drop 16)

theorem length_cryptBlocks (encipher : Bytes → Bytes) (nonce : Bytes) (count counter : Nat) (text : Bytes) :
    (cryptBlocks encipher nonce count counter text).length = text.length := by
  induction count generalizing counter text with
  | zero => rfl
  | succ count ih => simp [cryptBlocks, length_veil, ih]; omega

theorem cryptBlocks_cryptBlocks (encipher : Bytes → Bytes) (nonce : Bytes) (count counter : Nat)
    (text : Bytes) :
    cryptBlocks encipher nonce count counter (cryptBlocks encipher nonce count counter text) = text := by
  induction count generalizing counter text with
  | zero => rfl
  | succ count ih =>
    have size : (veil (encipher (counterBlock nonce counter)) (text.take 16)).length = min 16 text.length := by
      simp [length_veil]
    simp only [cryptBlocks]
    by_cases long : 16 ≤ text.length
    · have e : (veil (encipher (counterBlock nonce counter)) (text.take 16)).length = 16 := by omega
      rw [List.take_left' e, List.drop_left' e, veil_veil, ih, List.take_append_drop]
    · have rest : text.drop 16 = [] := List.drop_eq_nil_of_le (by omega)
      have all : text.take 16 = text := List.take_of_length_le (by omega)
      have none : cryptBlocks encipher nonce count (counter + 1) [] = [] :=
        List.eq_nil_of_length_eq_zero (length_cryptBlocks ..)
      simp only [rest, none, List.append_nil, all]
      rw [List.take_of_length_le (by rw [length_veil]; omega),
        List.drop_eq_nil_of_le (by rw [length_veil]; omega), veil_veil, none, List.append_nil]

/-- A text encrypted, or an encrypted one decrypted. -/
def crypt (encipher : Bytes → Bytes) (nonce text : Bytes) : Bytes :=
  cryptBlocks encipher nonce (blockCount text) 2 text

theorem length_crypt (encipher : Bytes → Bytes) (nonce text : Bytes) :
    (crypt encipher nonce text).length = text.length := length_cryptBlocks ..

theorem crypt_crypt (encipher : Bytes → Bytes) (nonce text : Bytes) :
    crypt encipher nonce (crypt encipher nonce text) = text := by
  have e : blockCount (crypt encipher nonce text) = blockCount text := by simp [blockCount, length_crypt]
  unfold crypt at *
  rw [e, cryptBlocks_cryptBlocks]

/-- One step of the multiplication below: adds `v` where the bit of `x` is set and multiplies `v` by the
field's variable. Bit 127 is the coefficient of 1. -/
def multiplyStep (x : Nat) (state : Nat × Nat) (i : Nat) : Nat × Nat :=
  let (z, v) := state
  (if x.testBit (127 - i) then z ^^^ v else z,
    if v.testBit 0 then (v >>> 1) ^^^ (0xE1 <<< 120) else v >>> 1)

def multiply (x y : Nat) : Nat := ((List.range 128).foldl (multiplyStep x) (0, y)).1

/-- The running hash over a text, block by block, the last one filled up with zeros. -/
def hashBlocks (key : Nat) : (count hash : Nat) → Bytes → Nat
  | 0, hash, _ => hash
  | count + 1, hash, text =>
    let block := text.take 16 ++ List.replicate (16 - text.length) 0
    hashBlocks key count (multiply (hash ^^^ ofBigEndian block) key) (text.drop 16)

/-- The tag of an encrypted text; nothing but the text is authenticated. -/
def tag (encipher : Bytes → Bytes) (nonce cipherText : Bytes) : Bytes :=
  let key := ofBigEndian (encipher (List.replicate 16 0))
  let hash := multiply (hashBlocks key (blockCount cipherText) 0 cipherText ^^^ (8 * cipherText.length)) key
  veil (encipher (counterBlock nonce 1)) (bigEndian 16 hash)

theorem length_tag (encipher : Bytes → Bytes) (nonce cipherText : Bytes) :
    (tag encipher nonce cipherText).length = 16 := by
  simp [tag, length_veil, bigEndian]

def sealWith (encipher : Bytes → Bytes) (nonce text : Bytes) : Bytes :=
  let cipherText := crypt encipher nonce text
  cipherText ++ tag encipher nonce cipherText

/-- The text behind a sealed one, when its tag is right. -/
def unsealWith? (encipher : Bytes → Bytes) (nonce sealed : Bytes) : Option Bytes :=
  if sealed.length < 16 then none
  else
    let cipherText := sealed.take (sealed.length - 16)
    if sealed.drop (sealed.length - 16) = tag encipher nonce cipherText then
      some (crypt encipher nonce cipherText)
    else none

theorem unsealWith?_eq_some_iff (encipher : Bytes → Bytes) (nonce sealed text : Bytes) :
    unsealWith? encipher nonce sealed = some text ↔ sealed = sealWith encipher nonce text := by
  constructor
  · intro h
    unfold unsealWith? at h
    split at h
    · simp at h
    · simp only at h
      split at h
      · rename_i e
        simp only [Option.some.injEq] at h
        subst h
        simp only [sealWith, crypt_crypt, ← e, List.take_append_drop]
      · simp at h
  · rintro rfl
    have size : (sealWith encipher nonce text).length = text.length + 16 := by
      simp [sealWith, length_crypt, length_tag]
    unfold unsealWith?
    rw [if_neg (by omega), size]
    have e : text.length + 16 - 16 = (crypt encipher nonce text).length := by
      rw [length_crypt]
      omega
    simp only [sealWith, e, List.take_left', List.drop_left', if_true, crypt_crypt]

def sealText (key nonce text : Bytes) : Bytes := sealWith (Aes.encipherWith (Aes.roundKeys key)) nonce text

def unseal? (key nonce sealed : Bytes) : Option Bytes :=
  unsealWith? (Aes.encipherWith (Aes.roundKeys key)) nonce sealed

theorem unseal?_eq_some_iff (key nonce sealed text : Bytes) :
    unseal? key nonce sealed = some text ↔ sealed = sealText key nonce text :=
  unsealWith?_eq_some_iff _ _ _ _

end BucketBench.Gcm
