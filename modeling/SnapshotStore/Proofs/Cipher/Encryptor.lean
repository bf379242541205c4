import SnapshotStore.Cipher.Encryptor
import SnapshotStore.Proofs.Base64
import SnapshotStore.Proofs.Text.Utf8

/-!
What decryption under a key accepts. A frame is cut into nonce, ciphertext and tag in one way, so a
text decrypts to a plaintext exactly if it is the one that encryption makes of this plaintext with
some nonce, and what is wrong with any other text is one of four things (`Unreadable`). Main
statement: `aes_exact`.
-/

namespace SnapshotStore.Encryptor

variable {key : Aes.Key} {text plain : String} {fault : DecryptionFault}

/-- A nonce and what is behind it are the parts of their bytes. -/
theorem split_frame (nonce : Gcm.Nonce) (box : Bytes) :
    (nonce.bytes ++ box).take 12 = nonce.bytes ∧ (nonce.bytes ++ box).drop 12 = box := by
  rw [← nonce.length_bytes]
  exact ⟨List.take_left, List.drop_left⟩

/-- Bytes that are no shorter than a nonce begin with one. -/
theorem exists_nonce {bytes : Bytes} (long : 12 ≤ bytes.length) :
    ∃ (nonce : Gcm.Nonce) (box : Bytes), bytes = nonce.bytes ++ box :=
  ⟨⟨bytes.take 12, by rw [List.length_take]; omega⟩, bytes.drop 12,
    (List.take_append_drop 12 bytes).symm⟩

theorem length_sealed (key : Aes.Key) (nonce : Gcm.Nonce) (plaintext : Bytes) :
    (Gcm.sealed key nonce plaintext).length = plaintext.length + 16 := by
  simp [Gcm.sealed]

/-! ## Readings -/

theorem unframe_of_not_base64 (other : ∀ bytes, text ≠ Base64.encode bytes) :
    unframe key text = .error (.decryptionFailed .notBase64) := by
  cases decoded : Base64.decode? text with
  | none => rw [unframe, decoded]
  | some bytes => exact absurd (Base64.decode?_eq_some_iff.1 decoded) (other bytes)

theorem unframe_of_short {bytes : Bytes} (short : bytes.length < leastFrame) :
    unframe key (Base64.encode bytes) = .error (.decryptionFailed .tooShort) := by
  rw [unframe, Base64.decode?_encode]
  exact dif_neg (Nat.not_le.2 short)

/-- A long enough frame is read as what is behind its nonce. -/
theorem unframe_of_long (nonce : Gcm.Nonce) {box : Bytes} (long : 16 ≤ box.length) :
    unframe key (Base64.encode (nonce.bytes ++ box)) =
      match Gcm.unseal? key nonce box with
      | none => .error (.decryptionFailed .authentication)
      | some plaintext =>
        (Utf8.decode plaintext).mapError fun fault => .decryptionFailed (.notText fault) := by
  obtain ⟨front, behind⟩ := split_frame nonce box
  have enough : leastFrame ≤ (nonce.bytes ++ box).length := by
    rw [List.length_append, nonce.length_bytes, leastFrame]
    omega
  rw [unframe, Base64.decode?_encode]
  cases opened : Gcm.unseal? key nonce box with
  | none => simp only [dif_pos enough, front, behind, opened]
  | some plaintext => simp only [dif_pos enough, front, behind, opened]

theorem unframe_of_unsealed (nonce : Gcm.Nonce) {box : Bytes} (long : 16 ≤ box.length)
    (other : ∀ plaintext, box ≠ Gcm.sealed key nonce plaintext) :
    unframe key (Base64.encode (nonce.bytes ++ box)) =
      .error (.decryptionFailed .authentication) := by
  rw [unframe_of_long nonce long]
  cases opened : Gcm.unseal? key nonce box with
  | none => rfl
  | some plaintext => exact absurd (Gcm.unseal?_eq_some_iff.1 opened) (other plaintext)

theorem unframe_of_sealed (nonce : Gcm.Nonce) (plaintext : Bytes) :
    unframe key (Base64.encode (nonce.bytes ++ Gcm.sealed key nonce plaintext)) =
      (Utf8.decode plaintext).mapError fun fault => .decryptionFailed (.notText fault) := by
  rw [unframe_of_long nonce (by rw [length_sealed]; omega), Gcm.unseal?_sealed]

/-- A frame decrypts to the text that it was made of. -/
theorem unframe_frame (key : Aes.Key) (nonce : Gcm.Nonce) (text : String) :
    unframe key (frame key nonce text) = .ok text := by
  rw [frame, unframe_of_sealed, Utf8.decode_encode]
  rfl

/-! ## What a text can be -/

/-- What is wrong with a text under a key. -/
inductive Unreadable (key : Aes.Key) : String → DecryptionFault → Prop
  /-- It is not the canonical text of any bytes. -/
  | notBase64 {text : String} :
      (∀ bytes, text ≠ Base64.encode bytes) → Unreadable key text .notBase64
  /-- Its bytes have no room for a nonce and a tag. -/
  | tooShort {bytes : Bytes} :
      bytes.length < leastFrame → Unreadable key (Base64.encode bytes) .tooShort
  /-- What is behind its nonce is the seal of nothing. -/
  | authentication {nonce : Gcm.Nonce} {box : Bytes} : 16 ≤ box.length →
      (∀ plaintext, box ≠ Gcm.sealed key nonce plaintext) →
      Unreadable key (Base64.encode (nonce.bytes ++ box)) .authentication
  /-- It is the seal of bytes that are not a text. -/
  | notText {nonce : Gcm.Nonce} {plaintext : Bytes} {fault : Utf8.Fault} :
      Utf8.decode plaintext = .error fault →
      Unreadable key (Base64.encode (nonce.bytes ++ Gcm.sealed key nonce plaintext)) (.notText fault)

theorem Unreadable.unframe (h : Unreadable key text fault) :
    unframe key text = .error (.decryptionFailed fault) := by
  cases h with
  | notBase64 other => exact unframe_of_not_base64 other
  | tooShort short => exact unframe_of_short short
  | authentication long other => exact unframe_of_unsealed _ long other
  | notText bad =>
    rw [unframe_of_sealed, bad]
    rfl

/-- A text is a frame, or something is wrong with it. -/
theorem frame_or_unreadable (key : Aes.Key) (text : String) :
    (∃ nonce plain, text = frame key nonce plain) ∨ ∃ fault, Unreadable key text fault := by
  by_cases base64 : ∃ bytes, text = Base64.encode bytes
  swap
  · exact .inr ⟨_, .notBase64 fun bytes h => base64 ⟨bytes, h⟩⟩
  obtain ⟨bytes, rfl⟩ := base64
  by_cases short : bytes.length < leastFrame
  · exact .inr ⟨_, .tooShort short⟩
  rw [leastFrame] at short
  have long : 12 ≤ bytes.length := by omega
  obtain ⟨nonce, box, rfl⟩ := exists_nonce long
  by_cases genuine : ∃ plaintext, box = Gcm.sealed key nonce plaintext
  swap
  · rw [List.length_append, nonce.length_bytes] at short
    exact .inr ⟨_, .authentication (by omega) fun plaintext h => genuine ⟨plaintext, h⟩⟩
  obtain ⟨plaintext, rfl⟩ := genuine
  cases decoded : Utf8.decode plaintext with
  | error fault => exact .inr ⟨_, .notText decoded⟩
  | ok plain =>
    rw [Utf8.decode_eq_ok_iff.1 decoded]
    exact .inl ⟨nonce, plain, rfl⟩

theorem unframe_eq_ok_iff : unframe key text = .ok plain ↔ ∃ nonce, text = frame key nonce plain := by
  constructor
  · intro h
    obtain ⟨nonce, other, rfl⟩ | ⟨fault, bad⟩ := frame_or_unreadable key text
    · rw [unframe_frame] at h
      cases h
      exact ⟨nonce, rfl⟩
    · rw [bad.unframe] at h
      cases h
  · rintro ⟨nonce, rfl⟩
    exact unframe_frame key nonce plain

theorem unframe_eq_error_iff {error : StoreError} :
    unframe key text = .error error ↔
      ∃ fault, error = .decryptionFailed fault ∧ Unreadable key text fault := by
  constructor
  · intro h
    obtain ⟨nonce, other, rfl⟩ | ⟨fault, bad⟩ := frame_or_unreadable key text
    · rw [unframe_frame] at h
      cases h
    · rw [bad.unframe] at h
      cases h
      exact ⟨fault, rfl, bad⟩
  · rintro ⟨fault, rfl, bad⟩
    exact bad.unframe

/-- Decryption under a key is exact. Encryption of a text succeeds with each nonce; what it gives is
the one canonical base 64 text of nonce, ciphertext and tag. A text decrypts to a plaintext exactly
if it is what encryption gives for it with some nonce, and any other text fails to be decrypted, for
the reason that applies to it. -/
theorem aes_exact (key : Aes.Key) :
    (∀ nonce plain, ∃ text, (aes key).encrypt nonce plain = .ok text) ∧
    (∀ nonce plain text, (aes key).encrypt nonce plain = .ok text ↔
      ∃ digits fill,
        Base64.Spells digits fill (nonce.bytes ++ Gcm.sealed key nonce (Utf8.encode plain)) ∧
          text = String.ofList (Base64.spell digits fill)) ∧
    (∀ text plain, (aes key).decrypt text = .ok plain ↔
      ∃ nonce, (aes key).encrypt nonce plain = .ok text) ∧
    ∀ text error, (aes key).decrypt text = .error error ↔
      ∃ fault, error = .decryptionFailed fault ∧ Unreadable key text fault := by
  have written (nonce plain text) :
      (aes key).encrypt nonce plain = .ok text ↔ text = frame key nonce plain := by
    rw [aes, Except.ok.injEq, eq_comm]
  refine ⟨fun nonce plain => ⟨_, rfl⟩, ?_, ?_, ?_⟩
  · intro nonce plain text
    rw [written, frame, Base64.encode_eq_iff]
  · intro text plain
    simp only [written]
    exact unframe_eq_ok_iff
  · intro text error
    exact unframe_eq_error_iff

end SnapshotStore.Encryptor
