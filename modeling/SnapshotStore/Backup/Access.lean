import SnapshotStore.Backup.Place
import SnapshotStore.Script
import SnapshotStore.Store.Partition

/-!
What keeping backups asks for: calls on the disk, on the engine and on partitions, leave to write
and to read the snapshot of an entity, identifiers that were never used, and the time. A run that
stops after some requests leaves the disk as the requests up to there made it.
-/

namespace SnapshotStore

/-- A request of a backup keeper. -/
inductive KeeperRequest where
  | disk (c : DiskCall)
  | openPartition (name : String)
  | removePartition (name : String)
  | closeEngine
  | call (partition : Nat) (c : Call)
  /-- Whether the snapshot of an entity can be written. -/
  | admitWrite (entity : String)
  /-- Whether the snapshot of an entity can be read. -/
  | admitRead (entity : String)
  | freshId
  | now
  deriving DecidableEq, Repr

/-- What a request of a backup keeper is answered with. -/
abbrev KeeperRequest.Reply : KeeperRequest → Type
  | .disk c => Except DiskFault c.Answer
  | .openPartition _ => Except StorageError Nat
  | .removePartition _ | .closeEngine => Except StorageError Unit
  | .call _ c => Except StorageError c.Answer
  | .admitWrite _ | .admitRead _ => Except StoreError Unit
  | .freshId => Id
  | .now => Stamp

abbrev keeperInterface : Interface := ⟨KeeperRequest, KeeperRequest.Reply⟩

end SnapshotStore
