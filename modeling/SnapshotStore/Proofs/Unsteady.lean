import SnapshotStore.Error
import SnapshotStore.Store.Partition

/-!
Partitions whose calls may fail. Each call meets a fate: it is done, it fails before it acts, or it
acts and its answer is lost, as when its time runs out after its effect.
-/

namespace SnapshotStore

/-- What becomes of a call. -/
inductive Fate where
  | done
  /-- The call fails and has done nothing. -/
  | refused (e : StorageError)
  /-- The call acts and reports an error. -/
  | lost (e : StorageError)
  deriving Repr

namespace Fate

/-- The answer that the caller gets. -/
def judge {α : Type} (answer : α) : Fate → Except StorageError α
  | done => .ok answer
  | refused e | lost e => .error e

/-- Whether the call acts. -/
def acts : Fate → Bool
  | done | lost _ => true
  | refused _ => false

end Fate

/-- A partition and what becomes of the next calls on it; all further calls are done. -/
structure Unsteady where
  partition : Partition
  fates : List Fate

namespace Unsteady

/-- The fate of the next call. -/
def next (u : Unsteady) : Fate := u.fates.headD .done

/-- The answer to a call, and what is left after it. -/
def call (c : Call) (u : Unsteady) : Except StorageError c.Answer × Unsteady :=
  (u.next.judge (u.partition.call c).1,
    ⟨if u.next.acts then (u.partition.call c).2 else u.partition, u.fates.tail⟩)

end Unsteady

namespace Partition

/-- The answer to a call of which none ever fails. -/
def serve (c : Call) (p : Partition) : Except StorageError c.Answer × Partition :=
  (.ok (p.call c).1, (p.call c).2)

end Partition

end SnapshotStore
