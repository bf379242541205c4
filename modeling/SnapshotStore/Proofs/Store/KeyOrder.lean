import SnapshotStore.Proofs.OffsetKey
import SnapshotStore.Proofs.Text.Utf8

/-!
Keys of typed stores in the order in which a partition has them, which is the order of their bytes.
Each key is read back from its bytes (`KeyKind.decode_encode`), so that no two keys have the same
ones.
-/

namespace SnapshotStore

namespace KeyKind

theorem decode_encode (keys : KeyKind) (key : keys.Carrier) :
    keys.codec.decode (keys.codec.encode key) = .ok key := by
  cases keys with
  | string =>
    show (Utf8.decode (Utf8.encode key)).mapError _ = _
    rw [Utf8.decode_encode]
    rfl
  | bytes => rfl
  | signed => exact Queue.decode_encode_key key
  | unsigned =>
    have hlt : key.toNat < 256 ^ 8 := key.toNat_lt
    show unsignedCodec.decode (unsignedCodec.encode key) = .ok key
    simp only [unsignedCodec, Bytes.length_bigEndian, if_true, Bytes.toNat_bigEndian,
      Nat.mod_eq_of_lt hlt, UInt64.ofNat_toNat]

theorem encode_injective (keys : KeyKind) : Function.Injective keys.codec.encode := by
  intro key key' same
  exact Except.ok.inj ((keys.decode_encode key).symm.trans
    ((congrArg keys.codec.decode same).trans (keys.decode_encode key')))

instance (keys : KeyKind) : DecidableEq keys.Carrier :=
  match keys with
  | string => inferInstanceAs (DecidableEq String)
  | bytes => inferInstanceAs (DecidableEq Bytes)
  | signed => inferInstanceAs (DecidableEq Int64)
  | unsigned => inferInstanceAs (DecidableEq UInt64)

end KeyKind

/-- A key, ordered as its bytes are. -/
structure StoreKey (keys : KeyKind) where
  key : keys.Carrier
  deriving DecidableEq

namespace StoreKey

variable {keys : KeyKind}

def bytes (k : StoreKey keys) : Bytes := keys.codec.encode k.key

theorem bytes_injective : Function.Injective (bytes : StoreKey keys → Bytes) :=
  fun ⟨_⟩ ⟨_⟩ same => congrArg mk (keys.encode_injective same)

instance : LT (StoreKey keys) := ⟨fun k l => k.bytes < l.bytes⟩

instance : LE (StoreKey keys) := ⟨fun k l => k.bytes ≤ l.bytes⟩

instance : DecidableLT (StoreKey keys) := fun k l => inferInstanceAs (Decidable (k.bytes < l.bytes))

instance : DecidableLE (StoreKey keys) := fun k l => inferInstanceAs (Decidable (k.bytes ≤ l.bytes))

instance : Std.IsLinearOrder (StoreKey keys) where
  le_refl k := Std.le_refl k.bytes
  le_trans _ _ _ := Std.le_trans (α := Bytes)
  le_antisymm _ _ le ge := bytes_injective (Std.le_antisymm (α := Bytes) le ge)
  le_total k l := Std.le_total (a := k.bytes) (b := l.bytes)

instance : Std.LawfulOrderLT (StoreKey keys) :=
  ⟨fun k l => Std.lt_iff_le_and_not_ge (a := k.bytes) (b := l.bytes)⟩

/-- Whether bytes are those of a key. -/
def Are (bytes : Bytes) (k : StoreKey keys) : Prop := bytes = k.bytes

theorem orderFaithful_are : OrderedMap.OrderFaithful (Are : Bytes → StoreKey keys → Prop) := by
  rintro _ _ k l rfl rfl
  exact .rfl

theorem Are.decode {bytes : Bytes} {k : StoreKey keys} (h : Are bytes k) :
    keys.codec.decode bytes = .ok k.key := by
  rw [h]
  exact keys.decode_encode k.key

end StoreKey

end SnapshotStore
