import SnapshotStore.Proofs.Store.KeyOrder
import SnapshotStore.Proofs.Text.Order
import SnapshotStore.Proofs.Text.WellFormed

/-!
Keys of typed stores and their bytes. The keys of a type and the byte strings that it accepts
(`Accepts`) are two forms of the same things, and the bytes are ordered as the keys are
(`Precedes`). Main statement: `encoding_faithful`.
-/

namespace SnapshotStore.KeyKind

/-- Whether bytes are those of a key: numbers take eight, and those of a text are well formed. -/
def Accepts : KeyKind → Bytes → Prop
  | string, s => Utf8.WellFormed s
  | bytes, _ => True
  | signed, s | unsigned, s => s.length = 8

/-- Which of two keys comes first. Texts are compared by the numbers of their characters, and
numbers by their values, except that a negative one comes after those from zero on. -/
def Precedes : (keys : KeyKind) → keys.Carrier → keys.Carrier → Prop
  | string => fun (s t : String) => s.toList.map Char.toNat < t.toList.map Char.toNat
  | bytes => fun (s t : Bytes) => s < t
  | signed => fun (m n : Int64) =>
    (m.toInt < 0 ↔ n.toInt < 0) ∧ m.toInt < n.toInt ∨ 0 ≤ m.toInt ∧ n.toInt < 0
  | unsigned => fun (m n : UInt64) => m.toNat < n.toNat

/-! ## Reading -/

theorem bigEndian_ofNat {bytes : Bytes} (length : bytes.length = 8) :
    Bytes.bigEndian 8 (UInt64.ofNat (Bytes.toNat bytes)).toNat = bytes := by
  have small : Bytes.toNat bytes < 2 ^ 64 := by
    have := Bytes.toNat_lt bytes
    rw [length] at this
    exact this
  rw [UInt64.toNat_ofNat_of_lt' small, ← length, Bytes.bigEndian_toNat]

/-- The bytes that are read as a key are its own. -/
theorem encode_of_decode {keys : KeyKind} {key : keys.Carrier} {bytes : Bytes}
    (h : keys.codec.decode bytes = .ok key) : keys.codec.encode key = bytes := by
  cases keys with
  | string =>
    change (Utf8.decode bytes).mapError _ = .ok key at h
    cases read : Utf8.decode bytes with
    | error fault =>
      rw [read] at h
      cases h
    | ok text =>
      rw [read] at h
      cases h
      exact (Utf8.decode_eq_ok_iff.1 read).symm
  | bytes =>
    cases h
    rfl
  | signed | unsigned =>
    change (if bytes.length = 8 then _ else _) = _ at h
    split at h
    · cases h
      exact bigEndian_ofNat ‹_›
    · cases h

theorem decode_eq_ok_iff {keys : KeyKind} {key : keys.Carrier} {bytes : Bytes} :
    keys.codec.decode bytes = .ok key ↔ keys.codec.encode key = bytes := by
  refine ⟨encode_of_decode, ?_⟩
  rintro rfl
  exact keys.decode_encode key

/-- What is no key is refused as a fault of the encoding. -/
theorem decode_cases (keys : KeyKind) (bytes : Bytes) :
    (keys.Accepts bytes ∧ ∃ key, keys.codec.decode bytes = .ok key) ∨
      ¬keys.Accepts bytes ∧ ∃ fault, keys.codec.decode bytes = .error (.codec fault) := by
  cases keys with
  | string =>
    cases read : Utf8.decode bytes with
    | error fault =>
      refine .inr ⟨fun wellFormed => ?_, .keyNotText fault, ?_⟩
      · obtain ⟨text, h⟩ := Utf8.exists_decode_iff.2 wellFormed
        rw [read] at h
        cases h
      · change (Utf8.decode bytes).mapError _ = _
        rw [read]
        rfl
    | ok text =>
      refine .inl ⟨Utf8.exists_decode_iff.1 ⟨text, read⟩, text, ?_⟩
      change (Utf8.decode bytes).mapError _ = _
      rw [read]
      rfl
  | bytes => exact .inl ⟨trivial, bytes, rfl⟩
  | signed | unsigned =>
    by_cases length : bytes.length = 8
    · exact .inl ⟨length, _, if_pos length⟩
    · exact .inr ⟨length, _, if_neg length⟩

/-! ## Order -/

/-- The bits of a signed number as a number without a sign. -/
theorem toNat_toUInt64 (n : Int64) :
    (n.toUInt64.toNat : Int) = if n.toInt < 0 then n.toInt + 2 ^ 64 else n.toInt := by
  have value : n.toInt = n.toBitVec.toInt := rfl
  have bits : n.toUInt64.toNat = n.toBitVec.toNat := rfl
  have small := n.toBitVec.isLt
  rw [value, bits, BitVec.toInt_eq_toNat_cond]
  split <;> split <;> omega

/-- The bytes of keys are ordered as the keys. -/
theorem encode_lt_iff (keys : KeyKind) (key key' : keys.Carrier) :
    keys.codec.encode key < keys.codec.encode key' ↔ keys.Precedes key key' := by
  cases keys with
  | string => exact Utf8.encode_lt_iff
  | bytes => exact .rfl
  | signed =>
    have small : ∀ n : Int64, n.toUInt64.toNat < 256 ^ 8 := fun n => n.toUInt64.toNat_lt
    have first := toNat_toUInt64 key
    have second := toNat_toUInt64 key'
    have low := Int64.le_toInt key
    have low' := Int64.le_toInt key'
    have high := Int64.toInt_lt key
    have high' := Int64.toInt_lt key'
    change Bytes.bigEndian 8 _ < Bytes.bigEndian 8 _ ↔ _
    rw [Bytes.bigEndian_lt_iff (small key) (small key')]
    unfold Precedes
    split at first <;> split at second <;> omega
  | unsigned => exact Bytes.bigEndian_lt_iff (UInt64.toNat_lt key) (UInt64.toNat_lt key')

/-- Each key is read back from its bytes and from no others. The bytes of keys are those that are
accepted, all others are refused as a fault of the encoding, and they are ordered as the keys. -/
theorem encoding_faithful (keys : KeyKind) :
    (∀ key bytes, keys.codec.decode bytes = .ok key ↔ keys.codec.encode key = bytes) ∧
      (∀ bytes, (∃ key, keys.codec.encode key = bytes) ↔ keys.Accepts bytes) ∧
      (∀ bytes, (∃ fault, keys.codec.decode bytes = .error (.codec fault)) ↔
        ¬keys.Accepts bytes) ∧
      ∀ key key', keys.codec.encode key < keys.codec.encode key' ↔ keys.Precedes key key' := by
  refine ⟨fun _ _ => decode_eq_ok_iff, fun bytes => ?_, fun bytes => ?_, keys.encode_lt_iff⟩
  · rcases keys.decode_cases bytes with ⟨accepted, key, read⟩ | ⟨refused, fault, read⟩
    · exact iff_of_true ⟨key, encode_of_decode read⟩ accepted
    · refine iff_of_false ?_ refused
      rintro ⟨key, rfl⟩
      rw [keys.decode_encode] at read
      cases read
  · rcases keys.decode_cases bytes with ⟨accepted, key, read⟩ | ⟨refused, fault, read⟩
    · refine iff_of_false ?_ (not_not_intro accepted)
      rintro ⟨fault, refusal⟩
      rw [read] at refusal
      cases refusal
    · exact iff_of_true ⟨fault, read⟩ refused

example : signed.codec.encode Int64.maxValue < signed.codec.encode (-1) := by decide

end SnapshotStore.KeyKind
