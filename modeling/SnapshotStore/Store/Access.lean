import SnapshotStore.Error
import SnapshotStore.Script
import SnapshotStore.Store.Partition

/-!
What operations of typed stores ask for: calls on the partition of the store, its locks, and the
bounds that a queue keeps beside its partition. Between two requests another operation may take its
turn, unless it waits for a lock that is held.
-/

namespace SnapshotStore

/-- A lock of a store. -/
inductive Lock where
  /-- One of the locks among which keys are shared out. -/
  | shard (index : Nat)
  /-- The lock of those that take from the front of a queue. -/
  | head
  /-- The lock of those that put at the back of a queue. -/
  | tail
  deriving DecidableEq, Repr

/-- A request of a typed store. -/
inductive StoreRequest where
  | call (c : Call)
  | acquire (lock : Lock)
  | release (lock : Lock)
  | head
  | tail
  | setHead (offset : Int)
  | setTail (offset : Int)
  deriving DecidableEq, Repr

/-- What a request of a typed store is answered with. -/
abbrev StoreRequest.Reply : StoreRequest → Type
  | .call c => Except StorageError c.Answer
  | .acquire _ | .release _ => Unit
  | .head | .tail => Int
  | .setHead _ | .setTail _ => Unit

abbrev storeInterface : Interface := ⟨StoreRequest, StoreRequest.Reply⟩

/-- An operation of a typed store: a script that may end with an error. -/
abbrev Operation (α : Type) := ExceptT StoreError (Script storeInterface) α

namespace Operation

variable {α : Type}

def ask (r : StoreRequest) : Operation r.Reply :=
  ExceptT.lift (Script.request (I := storeInterface) r)

def call (c : Call) : Operation c.Answer :=
  ExceptT.mk
    ((Except.mapError StoreError.storage) <$> Script.request (I := storeInterface) (.call c))

/-- The operation that gives a value or an error. -/
def ofExcept (r : Except StoreError α) : Operation α := ExceptT.mk (pure r)

/-- Holds a lock during an operation, however that ends. -/
def withLock (lock : Lock) (body : Operation α) : Operation α :=
  ExceptT.mk do
    let _ ← Script.request (I := storeInterface) (.acquire lock)
    let result ← body.run
    let _ ← Script.request (I := storeInterface) (.release lock)
    pure result

end Operation

/-! ## Running alone -/

/-- A store that runs alone: what answers its calls, and the bounds that a queue keeps. -/
structure Standing (σ : Type) where
  base : σ
  head : Int
  tail : Int

namespace Operation

variable {σ α : Type}

/-- The answer to a request of a store that runs alone, where `call` answers its calls. Nobody else
holds a lock. -/
def answer (call : (c : Call) → σ → Except StorageError c.Answer × σ) :
    (r : StoreRequest) → Standing σ → r.Reply × Standing σ
  | .call c, s =>
    let (result, base) := call c s.base
    (result, { s with base })
  | .acquire _, s => ((), s)
  | .release _, s => ((), s)
  | .head, s => (s.head, s)
  | .tail, s => (s.tail, s)
  | .setHead offset, s => ((), { s with head := offset })
  | .setTail offset, s => ((), { s with tail := offset })

/-- Runs an operation alone. -/
def runAlone (call : (c : Call) → σ → Except StorageError c.Answer × σ) (op : Operation α)
    (s : Standing σ) : Except StoreError α × Standing σ :=
  Script.run (I := storeInterface) (answer call) op.run s

end Operation

end SnapshotStore
