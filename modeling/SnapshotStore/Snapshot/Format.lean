import SnapshotStore.Snapshot.Cbor
import SnapshotStore.Snapshot.TaggedRecords

/-!
The two formats of snapshot files and their readers and writers.
-/

namespace SnapshotStore

/-- The format of snapshot files, as a manifest records it. -/
inductive Format where
  | taggedRecords
  | cbor
  deriving DecidableEq, Repr, Inhabited

namespace Format

def name : Format → String
  | taggedRecords => "ProtoBuf"
  | cbor => "Cbor"

def ofName? (name : String) : Option Format :=
  if name = "ProtoBuf" then some taggedRecords
  else if name = "Cbor" then some cbor
  else none

def write : Format → List (Bytes × Bytes) → Bytes
  | taggedRecords => TaggedRecords.write
  | cbor => Cbor.write

def read : Format → Bytes → Except StoreError (List (Bytes × Bytes))
  | taggedRecords => TaggedRecords.read
  | cbor => Cbor.read

/-- The entries in the file that was read. -/
def ofFile (format : Format) : Except DiskFault Bytes → Except StoreError (List (Bytes × Bytes))
  | .ok content => format.read content
  | .error fault => .error (.io fault)

@[simp] theorem ofName?_name (format : Format) : ofName? format.name = some format := by
  cases format <;> rfl

end Format

end SnapshotStore
