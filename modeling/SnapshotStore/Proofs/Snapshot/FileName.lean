import SnapshotStore.Proofs.Bytes
import SnapshotStore.Proofs.Text.Utf8
import SnapshotStore.Snapshot.FileName

/-!
File names of snapshots: a name is read back from its encoding (`decode_encode`), so that no two
entities share a file (`snapshot_injective`).
-/

namespace SnapshotStore.FileName

theorem plain_byte {b : UInt8} (h : isPlain b = true) :
    Char.ofNat b.toNat ≠ '%' ∧ String.utf8EncodeChar (Char.ofNat b.toNat) = [b] := by
  have all : ∀ b, isPlain b = true →
      Char.ofNat b.toNat ≠ '%' ∧ String.utf8EncodeChar (Char.ofNat b.toNat) = [b] := by
    apply Bytes.forall_byte
    decide +kernel
  exact all b h

/-- A digit is one byte, and it is no plus. -/
theorem single_of_digitValue? {c : Char} {n : Nat} (h : Hex.digitValue? c = some n) :
    c.utf8Size = 1 ∧ c ≠ '+' := by
  have all : ∀ k : Fin 16, ((Hex.digit k.val).utf8Size = 1 ∧ Hex.digit k.val ≠ '+') ∧
      (Hex.upperDigit k.val).utf8Size = 1 ∧ Hex.upperDigit k.val ≠ '+' := by
    decide
  obtain ⟨small, rfl | rfl⟩ := Hex.digitValue?_eq_some_iff.1 h
  · exact (all ⟨n, small⟩).1
  · exact (all ⟨n, small⟩).2

theorem escapeValue?_pair {hi lo : Char} (h : hi ≠ '+') :
    escapeValue? [hi, lo] =
      (Hex.digitValue? hi).bind fun m => (Hex.digitValue? lo).bind fun n =>
        some (16 * m + n) := by
  unfold escapeValue?
  split <;> simp_all

/-- An escape of two characters is read as the byte that they spell. -/
theorem decodeBytes_escape (whole : String) {hi lo : Char} {n : Nat} (highSize : hi.utf8Size = 1)
    (lowSize : lo.utf8Size = 1) (value : escapeValue? [hi, lo] = some n) (s : List Char) :
    decodeBytes whole ('%' :: hi :: lo :: s) = (decodeBytes whole s).map (UInt8.ofNat n :: ·) := by
  have taken : escapeChars? (hi :: lo :: s) = some ([hi, lo], s) := by
    rw [escapeChars?, if_neg (by rw [highSize]; decide), if_pos ⟨highSize, lowSize⟩]
  rw [decodeBytes, if_pos rfl]
  split
  · rename_i none
    rw [taken] at none
    cases none
  · rename_i digits rest some
    rw [taken] at some
    obtain ⟨rfl, rfl⟩ := Prod.mk.inj (Option.some.inj some)
    simp only [value]

theorem decodeBytes_encodeByte (whole : String) (b : UInt8) (s : List Char) :
    decodeBytes whole (encodeByte b ++ s) = (decodeBytes whole s).map (b :: ·) := by
  unfold encodeByte
  split
  · rename_i plain
    obtain ⟨unescaped, bytes⟩ := plain_byte plain
    rw [List.singleton_append, decodeBytes, if_neg unescaped, bytes]
    rfl
  · have small := b.toNat_lt
    have high := Hex.digitValue?_upperDigit (show b.toNat / 16 < 16 by omega)
    have low := Hex.digitValue?_upperDigit (show b.toNat % 16 < 16 by omega)
    obtain ⟨highSize, notPlus⟩ := single_of_digitValue? high
    have value : escapeValue? [Hex.upperDigit (b.toNat / 16), Hex.upperDigit (b.toNat % 16)] =
        some b.toNat := by
      rw [escapeValue?_pair notPlus, high, low]
      exact congrArg some (Nat.div_add_mod b.toNat 16)
    have read := decodeBytes_escape whole highSize (single_of_digitValue? low).1 value s
    rwa [UInt8.ofNat_toNat] at read

theorem decodeBytes_encode (whole : String) (bytes : Bytes) :
    decodeBytes whole (bytes.flatMap encodeByte) = .ok bytes := by
  induction bytes with
  | nil =>
    rw [List.flatMap_nil, decodeBytes]
  | cons b bytes ih =>
    rw [List.flatMap_cons, decodeBytes_encodeByte, ih]
    rfl

theorem decode_of_error {encoded : String} {fault : CodecFault}
    (h : decodeBytes encoded encoded.toList = .error fault) :
    decode encoded = .error (.codec fault) := by
  rw [decode, h]
  rfl

theorem decode_of_ok {encoded : String} {bytes : Bytes}
    (h : decodeBytes encoded encoded.toList = .ok bytes) :
    decode encoded = (Utf8.decode bytes).mapError fun fault => .codec (.nameNotText fault) := by
  rw [decode, h]
  rfl

/-- The name of an entity is read back from its encoding. -/
theorem decode_encode (name : String) : decode (encode name) = .ok name := by
  have bytes : decodeBytes (encode name) (encode name).toList = .ok (Utf8.encode name) := by
    rw [encode, String.toList_ofList]
    exact decodeBytes_encode _ _
  rw [decode_of_ok bytes, Utf8.decode_encode]
  rfl

theorem encode_injective {name name' : String} (h : encode name = encode name') :
    name = name' := by
  have back := decode_encode name
  rw [h, decode_encode] at back
  exact (Except.ok.inj back).symm

theorem toList_snapshot (entity : String) :
    (snapshot entity).toList = (encode entity).toList ++ ['.', 'b', 'i', 'n'] := by
  rw [snapshot, String.toList_append]
  rfl

/-- No two entities share a snapshot file. -/
theorem snapshot_injective {entity entity' : String} (h : snapshot entity = snapshot entity') :
    entity = entity' := by
  have text := congrArg String.toList h
  rw [toList_snapshot, toList_snapshot] at text
  exact encode_injective (String.toList_inj.1 (List.append_cancel_right text))

end SnapshotStore.FileName
