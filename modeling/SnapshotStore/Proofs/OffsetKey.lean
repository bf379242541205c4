import SnapshotStore.Proofs.Bytes
import SnapshotStore.Proofs.OrderedMap
import SnapshotStore.Store.Queue

/-!
Offsets as keys of a partition. Offsets from zero on lie in a partition in the order of the offsets
(`orderFaithful_isKeyOf`).
-/

namespace SnapshotStore

namespace Queue

/-- One more than the greatest offset. -/
def offsetLimit : Int := 2 ^ 63

/-- Whether bytes are the key of an offset that can be an item's. -/
def IsKeyOf (bytes : Bytes) (offset : Int) : Prop :=
  0 ≤ offset ∧ offset < offsetLimit ∧ bytes = KeyKind.signedCodec.encode (key offset)

theorem toInt_key {offset : Int} (h0 : 0 ≤ offset) (h : offset < offsetLimit) :
    (key offset).toInt = offset := by
  unfold offsetLimit at h
  rw [key, Int64.toInt_ofInt_of_le (by omega) h]

theorem toNat_key {offset : Int} (h0 : 0 ≤ offset) (h : offset < offsetLimit) :
    (key offset).toUInt64.toNat = offset.toNat := by
  unfold offsetLimit at h
  have hb : (key offset).toUInt64.toNat = (BitVec.ofInt 64 offset).toNat := rfl
  rw [hb, BitVec.toNat_ofInt]
  omega

theorem decode_encode_key (n : Int64) :
    KeyKind.signedCodec.decode (KeyKind.signedCodec.encode n) = .ok n := by
  have hlt : n.toUInt64.toNat < 256 ^ 8 := n.toUInt64.toNat_lt
  simp only [KeyKind.signedCodec, Bytes.length_bigEndian, if_true, Bytes.toNat_bigEndian,
    Nat.mod_eq_of_lt hlt, UInt64.ofNat_toNat, Int64.toInt64_toUInt64]

theorem IsKeyOf.decode {bytes : Bytes} {offset : Int} (h : IsKeyOf bytes offset) :
    KeyKind.signedCodec.decode bytes = .ok (key offset) := by
  rw [h.2.2, decode_encode_key]

theorem orderFaithful_isKeyOf : OrderedMap.OrderFaithful IsKeyOf := by
  rintro k k' o o' ⟨h0, h, rfl⟩ ⟨h0', h', rfl⟩
  have hlt : ∀ n : Int64, n.toUInt64.toNat < 256 ^ 8 := fun n => n.toUInt64.toNat_lt
  show Bytes.bigEndian 8 _ < Bytes.bigEndian 8 _ ↔ _
  rw [Bytes.bigEndian_lt_iff (hlt _) (hlt _), toNat_key h0 h, toNat_key h0' h']
  omega

end Queue

end SnapshotStore
