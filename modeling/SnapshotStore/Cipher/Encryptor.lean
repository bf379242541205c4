import SnapshotStore.Bytes.Base64
import SnapshotStore.Cipher.Gcm
import SnapshotStore.Error
import SnapshotStore.Text.Blank

/-!
What seals and opens the text of a value. Sealing may use a nonce, which the caller supplies, so
that an encryptor is a pair of functions.
-/

namespace SnapshotStore

/-- A way to encrypt texts and to decrypt them. -/
structure Encryptor where
  encrypt : Gcm.Nonce → String → Except StoreError String
  decrypt : String → Except StoreError String

def Aes.keySize : Nat := 32

/-- The key of 32 bytes. -/
def Aes.Key.ofBytes (bytes : Bytes) : Except StoreError Aes.Key :=
  if h : bytes.length = 32 then .ok ⟨bytes, h⟩
  else .error (.invalidKeySize Aes.keySize bytes.length)

/-- The key of a text in base 64, with blanks around it. -/
def Aes.Key.ofBase64 (text : String) : Except StoreError Aes.Key :=
  match Base64.decodeChars? (Blank.trim text.toList) with
  | some bytes => Aes.Key.ofBytes bytes
  | none => .error (.encryptionFailed .keyNotBase64)

/-- What a listing shows of a key: nothing of its bytes. -/
def Aes.Key.inspect (_ : Aes.Key) : String := "EncryptionKey \x7b bytes: \"[REDACTED]\" \x7d"

namespace Encryptor

/-- Leaves texts as they are. -/
def null : Encryptor where
  encrypt _ text := .ok text
  decrypt := .ok

/-- The text of a seal: nonce, ciphertext and tag in base 64. -/
def frame (key : Aes.Key) (nonce : Gcm.Nonce) (text : String) : String :=
  Base64.encode (nonce.bytes ++ Gcm.sealed key nonce (Utf8.encode text))

/-- The bytes in which nothing but a nonce and a tag stand. -/
def leastFrame : Nat := 28

/-- The text that a frame holds. -/
def unframe (key : Aes.Key) (text : String) : Except StoreError String :=
  match Base64.decode? text with
  | none => .error (.decryptionFailed .notBase64)
  | some bytes =>
    if h : leastFrame ≤ bytes.length then
      let nonce : Gcm.Nonce :=
        ⟨bytes.take 12, by simp only [leastFrame] at h; simp only [List.length_take]; omega⟩
      match Gcm.unseal? key nonce (bytes.drop 12) with
      | none => .error (.decryptionFailed .authentication)
      | some plaintext =>
        (Utf8.decode plaintext).mapError fun fault => .decryptionFailed (.notText fault)
    else .error (.decryptionFailed .tooShort)

/-- Encryption under a key. -/
def aes (key : Aes.Key) : Encryptor where
  encrypt nonce text := .ok (frame key nonce text)
  decrypt := unframe key

/-- What a listing shows of encryption under a key. -/
def aesInspect : String := "AesGcmEncryptor \x7b .. \x7d"

end Encryptor

end SnapshotStore
