import SnapshotStore.Store.Layout

/-!
Entity stores: typed entries with operations that read a value and then write it. Each operation on
one key holds the lock of the shard to which the key belongs, so that operations on a key never
interleave; pages and the first and the last entry take no lock.
-/

namespace SnapshotStore

/-- How keys are shared out among locks. -/
structure Shards (κ : Type) where
  count : Nat
  count_pos : 0 < count
  hash : κ → Nat

namespace Shards

variable {κ : Type}

def ofCount (count : Nat) (hash : κ → Nat) : Shards κ := ⟨max count 1, by omega, hash⟩

def index (s : Shards κ) (key : κ) : Nat := s.hash key % s.count

theorem index_lt (s : Shards κ) (key : κ) : s.index key < s.count := Nat.mod_lt _ s.count_pos

/-- The count of shards unless another one is set. -/
def defaultCount : Nat := 12

end Shards

/-- What a conditional removal did: what its condition was asked about, if anything, and whether
that was removed. -/
structure Removal (α : Type) where
  seen : Option α
  removed : Bool
  deriving DecidableEq, Repr

/-- A typed store whose operations on a key do not interleave. -/
structure EntityStore (κ ν : Type) where
  name : String
  layout : Layout κ ν
  shards : Shards κ

namespace EntityStore

variable {κ ν α : Type} (s : EntityStore κ ν)

/-- Holds the lock of a key during an operation. -/
def locked (key : κ) (body : Operation α) : Operation α :=
  Operation.withLock (.shard (s.shards.index key)) body

def put (key : κ) (value : ν) : Operation Unit := s.locked key (s.layout.put key value)

def get (key : κ) : Operation (Option ν) := s.locked key (s.layout.get key)

def remove (key : κ) : Operation Unit := s.locked key (s.layout.remove key)

def contains (key : κ) : Operation Bool := s.locked key (s.layout.contains key)

def first : Operation (Option (κ × ν)) := s.layout.first

def last : Operation (Option (κ × ν)) := s.layout.last

def page (start : Option κ) (count : Nat) : Operation (List (κ × ν)) := s.layout.page start count

/-- The operations that stores have in common. -/
def keyed : KeyedStore κ ν :=
  ⟨s.put, s.get, s.remove, s.contains, s.first, s.last, s.page⟩

/-- Removes a key if its value satisfies a condition. -/
def removeIf (key : κ) (condition : ν → Bool) : Operation (Removal ν) :=
  s.locked key do
    match ← s.layout.get key with
    | none => pure ⟨none, false⟩
    | some value =>
      if condition value then do
        s.layout.remove key
        pure ⟨some value, true⟩
      else pure ⟨some value, false⟩

/-- Replaces the value of a key by a function of it and gives the new one. An absent key is an
error. -/
def update (key : κ) (change : ν → ν) : Operation ν :=
  s.locked key do
    match ← s.layout.get key with
    | none => throw (.valueNotFound s.name (s.layout.keys.inspect key))
    | some value =>
      s.layout.put key (change value)
      pure (change value)

/-- Replaces the value of a key by a function of it, or puts one if it has none; gives the value
that it has then. -/
def putOrUpdate (key : κ) (value : ν) (change : ν → ν) : Operation ν :=
  s.locked key do
    let new := match ← s.layout.get key with
      | none => value
      | some old => change old
    s.layout.put key new
    pure new

/-- The value of a key, which is put if it has none. -/
def findOrPut (key : κ) (value : ν) : Operation ν :=
  s.locked key do
    match ← s.layout.get key with
    | some old => pure old
    | none =>
      s.layout.put key value
      pure value

end EntityStore

end SnapshotStore
