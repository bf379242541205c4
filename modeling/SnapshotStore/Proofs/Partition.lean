import SnapshotStore.Proofs.OrderedMap
import SnapshotStore.Store.Partition

/-!
Partitions through their entries: what each call does to the map of a partition.
-/

namespace SnapshotStore.Partition

@[simp] theorem entries_remove (p : Partition) (key : Bytes) :
    (p.remove key).entries = p.entries.erase key := by
  unfold remove
  cases h : p.entries.get? key with
  | some old => rfl
  | none => exact (OrderedMap.erase_of_get?_eq_none h).symm

end SnapshotStore.Partition
