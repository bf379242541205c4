import SnapshotStore.Store.Partition

/-!
Outages: how the calls below the typed layers are delayed and made to fail. Calls are known by name:
those on a partition by their operation, those on the engine and on snapshots by names of their own.
-/

namespace SnapshotStore

/-- What holds up calls and makes them fail. -/
structure Outage where
  /-- Microseconds by which a call is held up. -/
  delays : List (String × Nat)
  /-- Whether a call that is held up acts first. -/
  actsFirst : Bool
  /-- What a call that fails says. It does not act. -/
  failures : List (String × String)
  /-- Whether the next first entry that is read to the end is then removed. -/
  vanishes : Bool
  deriving Repr, Inhabited

namespace Outage

/-- No call is held up and none fails. -/
def none : Outage := ⟨[], false, [], false⟩

def delay (o : Outage) (name : String) : Nat := (o.delays.lookup name).getD 0

/-- What a call says if it fails. -/
def failure? (o : Outage) (name : String) : Option String := o.failures.lookup name

def openName : String := "get_store"

def removeName : String := "remove_store"

def closeName : String := "close"

/-- The name of writing the snapshot of an entity. -/
def writeName (entity : String) : String := "backup:" ++ entity

/-- The name of reading the snapshot of an entity. -/
def readName (entity : String) : String := "restore:" ++ entity

end Outage

end SnapshotStore
