import SnapshotStore.Error
import SnapshotStore.Store.Partition

/-!
The engine: the partitions that exist, by name. Whoever opens a name gets a handle on the partition
that has it, and all handles of a partition see the same entries. Removing a name empties its
partition and detaches it: the handles on it stay usable, and a later opening of the name makes a
new partition.
-/

namespace SnapshotStore

/-- A handle on a partition: its number in order of creation. -/
abbrev PartitionId := Nat

/-- The partitions that were ever created and the names under which some of them are registered. -/
structure Engine where
  partitions : Array Partition
  registered : OrderedMap String PartitionId
  isClosed : Bool

namespace Engine

def empty : Engine := ⟨#[], .empty, false⟩

instance : Inhabited Engine := ⟨empty⟩

def partition (e : Engine) (id : PartitionId) : Partition := e.partitions.getD id default

def find? (e : Engine) (name : String) : Option Partition :=
  (e.registered.get? name).map e.partition

def names (e : Engine) : List String := e.registered.keys

/-- The bytes that the registered partitions count. -/
def totalSize (e : Engine) : Nat :=
  (e.registered.values.map fun id => (e.partition id).size).foldl (· + ·) 0

/-- A number of pages in which any partition can be read. -/
def pageBound (e : Engine) : Nat :=
  (e.partitions.toList.map fun partition => partition.entries.size).foldl (· + ·) 0 + 1

/-- A handle on the partition of a name, which is created unless it exists. -/
def openPartition (e : Engine) (name : String) : Except StorageError PartitionId × Engine :=
  if e.isClosed then (.error .closed, e)
  else
    match e.registered.get? name with
    | some id => (.ok id, e)
    | none =>
      (.ok e.partitions.size,
        { e with
          partitions := e.partitions.push (.empty name)
          registered := e.registered.insert name e.partitions.size })

/-- Empties the partition of a name and gives the name up. -/
def removePartition (e : Engine) (name : String) : Except StorageError Unit × Engine :=
  if e.isClosed then (.error .closed, e)
  else
    match e.registered.get? name with
    | some id =>
      (.ok (),
        { e with
          partitions := e.partitions.modify id Partition.clear
          registered := e.registered.erase name })
    | none => (.ok (), e)

/-- Opens and removes nothing any more. The handles stay usable. -/
def close (e : Engine) : Engine := { e with isClosed := true }

/-- The answer of a handle's partition to a call. -/
def call (e : Engine) (id : PartitionId) (c : Call) : c.Answer × Engine :=
  let (answer, p) := (e.partition id).call c
  (answer, { e with partitions := e.partitions.setIfInBounds id p })

end Engine

end SnapshotStore
