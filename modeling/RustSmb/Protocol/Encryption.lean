import RustSmb.Lib.Bytes

/-!
# Message encryption

The ciphers are called without additional authenticated data, so an encrypted message depends on its
transform header only through the part of the nonce that the cipher takes.  The ciphers are ideal:
they decrypt what they have encrypted, and nothing under another nonce.

## Main results

* `MessageEncryptor.bindsHeader_iff` — **the changes of a transform header that are noticed.**

Source: `rustsmb-protocol/src/crypto/encryption.rs`, `rustsmb-protocol/src/transform.rs`.
-/

namespace RustSmb

/-- The ciphers of SMB 3. -/
inductive EncryptionAlgorithm where
  | aes128Ccm
  | aes128Gcm
  | aes256Ccm
  | aes256Gcm
  deriving DecidableEq, Repr

def EncryptionAlgorithm.nonceSize : EncryptionAlgorithm → ℕ
  | aes128Ccm | aes256Ccm => 11
  | aes128Gcm | aes256Gcm => 12

theorem EncryptionAlgorithm.nonceSize_le (a : EncryptionAlgorithm) : a.nonceSize ≤ 16 := by
  cases a <;> decide

/-- Why a message is not encrypted or decrypted. -/
inductive EncryptionError where
  | invalidNonceSize (expected actual : ℕ)
  | decryptionFailed
  | cryptoError (text : String)
  deriving DecidableEq, Repr

/-- The header in front of an encrypted message. -/
structure Smb2TransformHeader where
  signature : Vector UInt8 16
  nonce : Vector UInt8 16
  originalMessageSize : UInt32
  reserved : UInt16
  flags : UInt16
  sessionId : UInt64
  deriving DecidableEq

def field16 (b : Bytes) : Vector UInt8 16 := Vector.ofFn fun i => b.getD i 0

theorem take_field16 {b : Bytes} {n : ℕ} (hb : b.length = n) (hn : n ≤ 16) :
    (field16 b).toList.take n = b := by
  refine List.ext_getElem (by simp [hb, hn]) fun i hi hi' => ?_
  simp [field16, hi']

/-- Ideal ciphers without additional authenticated data: ciphertexts end with a tag of 16 bytes. -/
class Aead where
  encrypt : EncryptionAlgorithm → Bytes → Bytes → Bytes → Bytes
  decrypt : EncryptionAlgorithm → Bytes → Bytes → Bytes → Option Bytes
  length_encrypt : ∀ a k n m, (encrypt a k n m).length = m.length + 16
  decrypt_encrypt : ∀ a k n m, decrypt a k n (encrypt a k n m) = some m
  decrypt_of_ne : ∀ a k n n' m, n.length = a.nonceSize → n'.length = a.nonceSize → n' ≠ n →
    decrypt a k n' (encrypt a k n m) = none

/-- A cipher with the keys of both directions. -/
structure MessageEncryptor where
  algorithm : EncryptionAlgorithm
  encryptionKey : Bytes
  decryptionKey : Bytes

namespace MessageEncryptor

variable [Aead]

/-- The source has no AES-256-CCM. -/
def encrypt (e : MessageEncryptor) (sessionId : UInt64) (plaintext nonce : Bytes) :
    Except EncryptionError (Smb2TransformHeader × Bytes) :=
  if nonce.length ≠ e.algorithm.nonceSize then
    .error (.invalidNonceSize e.algorithm.nonceSize nonce.length)
  else if e.algorithm = .aes256Ccm then .error (.cryptoError "AES-256-CCM not yet implemented")
  else
    let ciphertextWithTag := Aead.encrypt e.algorithm e.encryptionKey nonce plaintext
    .ok ({ signature := field16 (ciphertextWithTag.drop plaintext.length)
           nonce := field16 nonce
           originalMessageSize := UInt32.ofNat plaintext.length
           reserved := 0
           flags := 0x0001
           sessionId }, ciphertextWithTag.take plaintext.length)

/-- The tag in the header must fit. -/
def decrypt (e : MessageEncryptor) (header : Smb2TransformHeader) (ciphertext : Bytes) :
    Except EncryptionError Bytes :=
  if e.algorithm = .aes256Ccm then .error (.cryptoError "AES-256-CCM not yet implemented")
  else
    match Aead.decrypt e.algorithm e.decryptionKey (header.nonce.toList.take e.algorithm.nonceSize)
      (ciphertext ++ header.signature.toList) with
    | none => .error .decryptionFailed
    | some plaintext => .ok plaintext

/-- Under the same tag another field that the tag is to protect. -/
def Changed (header header' : Smb2TransformHeader) : Prop :=
  header'.signature = header.signature ∧ (header'.nonce ≠ header.nonce ∨
    header'.originalMessageSize ≠ header.originalMessageSize ∨ header'.flags ≠ header.flags ∨
    header'.sessionId ≠ header.sessionId)

/-- A message is read back under its header and not under a changed one. -/
def BindsHeader (d : MessageEncryptor) (header header' : Smb2TransformHeader)
    (ciphertext plaintext : Bytes) : Prop :=
  d.decrypt header ciphertext = .ok plaintext ∧
    (Changed header header' → ∃ err, d.decrypt header' ciphertext = .error err)

variable {e d : MessageEncryptor} {sessionId : UInt64} {plaintext nonce ciphertext : Bytes}
  {header header' : Smb2TransformHeader}

variable (halg : d.algorithm = e.algorithm) (hkey : d.decryptionKey = e.encryptionKey)
  (h : e.encrypt sessionId plaintext nonce = .ok (header, ciphertext))

include h in
theorem nonce_of_encrypt : header.nonce.toList.take e.algorithm.nonceSize = nonce := by
  unfold encrypt at h
  split_ifs at h with hnonce hccm
  cases h
  exact take_field16 (not_not.1 hnonce) (EncryptionAlgorithm.nonceSize_le _)

include halg hkey h in
/-- What a receiver makes of an encrypted message under a header with its signature. -/
theorem decrypt_of_encrypt (hsig : header'.signature = header.signature) :
    d.decrypt header' ciphertext =
      if header'.nonce.toList.take d.algorithm.nonceSize = nonce then .ok plaintext
      else .error .decryptionFailed := by
  unfold encrypt at h
  split_ifs at h with hnonce hccm
  cases h
  let sealed := Aead.encrypt e.algorithm e.encryptionKey nonce plaintext
  have htag : (sealed.drop plaintext.length).length = 16 := by
    rw [List.length_drop, Aead.length_encrypt]
    omega
  have hsealed : sealed.take plaintext.length ++ header'.signature.toList = sealed := by
    rw [hsig]
    have htake := take_field16 htag le_rfl
    rw [List.take_of_length_le (by simp)] at htake
    rw [htake, List.take_append_drop]
  unfold decrypt
  rw [halg, hkey, if_neg hccm, hsealed]
  split_ifs with hsame
  · rw [hsame, Aead.decrypt_encrypt]
  · rw [Aead.decrypt_of_ne _ _ _ _ _ (not_not.1 hnonce) ?_ hsame]
    simp [EncryptionAlgorithm.nonceSize_le]

include halg hkey h in
/-- **Exactly the changes of the part of the nonce that the cipher takes are noticed.** -/
theorem bindsHeader_iff : BindsHeader d header header' ciphertext plaintext ↔
    (Changed header header' → header'.nonce.toList.take d.algorithm.nonceSize ≠ nonce) := by
  have hread : d.decrypt header ciphertext = .ok plaintext := by
    rw [decrypt_of_encrypt halg hkey h rfl, halg, if_pos (nonce_of_encrypt h)]
  unfold BindsHeader
  rw [and_iff_right hread]
  refine forall_congr' fun hchanged => ?_
  rw [decrypt_of_encrypt halg hkey h hchanged.1]
  split_ifs with hsame
  · simp [hsame]
  · simp [hsame]

end MessageEncryptor

namespace Sample

/-- A cipher that leaves the plaintext as it is, with the nonce as the tag. -/
@[reducible]
def aead : Aead where
  encrypt _ _ n m := m ++ (field16 n).toList
  decrypt _ _ n c :=
    if c.drop (c.length - 16) = (field16 n).toList then some (c.take (c.length - 16)) else none
  length_encrypt := by simp
  decrypt_encrypt := by simp
  decrypt_of_ne a k n n' m hn hn' hne := by
    refine if_neg fun heq => hne ?_
    rw [← take_field16 hn' a.nonceSize_le, ← heq]
    simpa using take_field16 hn a.nonceSize_le

attribute [local instance] aead

/-- An encryptor with one key for both directions. -/
def encryptor : MessageEncryptor := ⟨.aes128Gcm, Bytes.zeros 16, Bytes.zeros 16⟩

/-- The header of a message of session 1. -/
def encrypted : Smb2TransformHeader := ⟨field16 [], field16 [], 2, 0, 1, 1⟩

/-- Another nonce is noticed. -/
theorem bindsHeader_iff_nonce :
    encryptor.BindsHeader encrypted { encrypted with nonce := field16 [1] } [5, 6] [5, 6] :=
  (MessageEncryptor.bindsHeader_iff (e := encryptor) rfl rfl
    (show encryptor.encrypt 1 [5, 6] (Bytes.zeros 12) = _ by decide +kernel)).2 fun _ => by
      decide +kernel

/-- **A message is read under the header of another session.** -/
theorem session_not_bound :
    ¬ encryptor.BindsHeader encrypted { encrypted with sessionId := 2 } [5, 6] [5, 6] := by
  intro hbinds
  obtain ⟨err, herr⟩ := hbinds.2 ⟨rfl, .inr (.inr (.inr (by decide)))⟩
  have hread : encryptor.decrypt { encrypted with sessionId := 2 } [5, 6] = .ok [5, 6] := by
    decide +kernel
  rw [hread] at herr
  cases herr

end Sample

end RustSmb
