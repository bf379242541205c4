import SnapshotStore.Snapshot.Format
import SnapshotStore.Space.Guard
import SnapshotStore.Store.Entity

/-!
Settings: how a depot is put together. Times are in microseconds.
-/

namespace SnapshotStore

/-- Where and how backups are kept. -/
structure BackupSettings where
  path : String
  format : Format
  /-- How many entries are read at a time. -/
  batchSize : Nat
  deriving DecidableEq, Repr

namespace BackupSettings

/-- How many entries are read at a time unless set otherwise. -/
def defaultBatchSize : Nat := 1000

/-- Backups at a path, otherwise as usual. -/
def ofPath (path : String) : BackupSettings := ⟨path, .taggedRecords, defaultBatchSize⟩

end BackupSettings

/-- How a depot is put together. -/
structure Settings where
  /-- How many locks the keys of an entity are shared out among. -/
  shardCount : Nat
  /-- The time budget of a call on a partition, if there is one. -/
  budget : Option Nat
  /-- The cap on the bytes in use, if there is one. -/
  cap : Option Nat
  /-- The time between samples of the bytes in use. -/
  period : Nat
  backup : Option BackupSettings
  deriving DecidableEq, Repr

namespace Settings

/-- The usual settings: a budget of 60 seconds, no cap and no backups. -/
def default : Settings := ⟨Shards.defaultCount, some 60000000, none, SpaceGuard.defaultPeriod, none⟩

instance : Inhabited Settings := ⟨default⟩

end Settings

end SnapshotStore
