import SnapshotStore.Bytes.Basic
import SnapshotStore.OrderedMap

/-!
Partitions: named ordered maps from bytes to bytes, and the calls on them. A partition counts the
bytes of its keys and values as they come and go.
-/

namespace SnapshotStore

/-- A key and its value, as bytes. -/
abbrev Entry := Bytes × Bytes

/-- A call on a partition. -/
inductive Call where
  | put (key value : Bytes)
  | get (key : Bytes)
  | remove (key : Bytes)
  | contains (key : Bytes)
  /-- The entry of the least key. -/
  | first
  /-- The entry of the greatest key. -/
  | last
  /-- The first `count` entries whose key is not below `start`. -/
  | page (start : Option Bytes) (count : Nat)
  deriving DecidableEq, Repr

namespace Call

abbrev Answer : Call → Type
  | put _ _ => Unit
  | get _ => Option Bytes
  | remove _ => Unit
  | contains _ => Bool
  | first => Option Entry
  | last => Option Entry
  | page _ _ => List Entry

/-- The name by which budgets and listings know a call. -/
def operation : Call → String
  | put _ _ => "put"
  | get _ => "get"
  | remove _ => "remove"
  | contains _ => "contains"
  | first => "first_entry"
  | last => "last_entry"
  | page _ _ => "iterate_batch"

/-- The names of all calls. -/
def operations : List String :=
  ["put", "get", "remove", "contains", "first_entry", "last_entry", "iterate_batch"]

end Call

/-- A named ordered map of bytes with its count of bytes. -/
structure Partition where
  name : String
  entries : OrderedMap Bytes Bytes
  /-- The bytes of keys and values, as counted. -/
  size : Nat

namespace Partition

def empty (name : String) : Partition := ⟨name, .empty, 0⟩

instance : Inhabited Partition := ⟨empty ""⟩

def put (p : Partition) (key value : Bytes) : Partition :=
  { p with
    entries := p.entries.insert key value
    size := match p.entries.get? key with
      | some old => p.size - old.length + value.length
      | none => p.size + (key.length + value.length) }

def remove (p : Partition) (key : Bytes) : Partition :=
  match p.entries.get? key with
  | some old =>
    { p with entries := p.entries.erase key, size := p.size - (key.length + old.length) }
  | none => p

def clear (p : Partition) : Partition := empty p.name

/-- Adds an entry while a partition is filled. The bytes of its key count each time it is given; of
its values the last one counts. -/
def load (p : Partition) (entry : Entry) : Partition :=
  let counted := p.size + (entry.1.length + entry.2.length)
  { p with
    entries := p.entries.insert entry.1 entry.2
    size := match p.entries.get? entry.1 with
      | some old => counted - old.length
      | none => counted }

/-- The partition filled with entries; the last value of a key counts. -/
def ofEntries (name : String) (entries : List Entry) : Partition :=
  entries.foldl load (empty name)

/-- The answer to a call, and the partition after it. -/
def call (p : Partition) : (c : Call) → c.Answer × Partition
  | .put key value => ((), p.put key value)
  | .get key => (p.entries.get? key, p)
  | .remove key => ((), p.remove key)
  | .contains key => (p.entries.contains key, p)
  | .first => (p.entries.first?, p)
  | .last => (p.entries.last?, p)
  | .page start count => (p.entries.page start count, p)

@[simp] theorem name_put (p : Partition) (key value : Bytes) :
    (p.put key value).name = p.name := rfl

@[simp] theorem name_remove (p : Partition) (key : Bytes) : (p.remove key).name = p.name := by
  unfold remove
  split <;> rfl

@[simp] theorem name_call (p : Partition) (c : Call) : (p.call c).2.name = p.name := by
  cases c <;> simp [call]

@[simp] theorem entries_put (p : Partition) (key value : Bytes) :
    (p.put key value).entries = p.entries.insert key value := rfl

end Partition

end SnapshotStore
