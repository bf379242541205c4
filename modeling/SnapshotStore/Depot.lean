import SnapshotStore.Stack
import SnapshotStore.Store.Envelope
import SnapshotStore.Store.Queue
import SnapshotStore.Store.Sealed

/-!
The depot: typed stores by name over a stack of layers. A name has one instance of a store, of one
type, until it is removed or the depot is closed; whoever asks for it gets that instance, whose
bounds and encryptor are the instance's own. Instances that were handed out before stay usable.
-/

namespace SnapshotStore

/-- The types of stores. -/
inductive StoreType where
  | entity (keys : KeyKind) (values : ValueKind)
  | queue (values : ValueKind)
  | sealed (keys : KeyKind) (values : ValueKind)
  | envelope (keys : KeyKind) (values : ValueKind)
  deriving DecidableEq, Repr, Inhabited

/-- A store that was handed out. -/
structure StoreInstance where
  name : String
  type : StoreType
  partition : PartitionId
  /-- The bounds of a queue. -/
  head : Int
  tail : Int
  /-- What seals the values of a sealed store or of an envelope store. -/
  encryptor : Option Encryptor
  deriving Inhabited

/-- Typed stores by name over a stack. -/
structure Depot where
  stack : Stack
  shardCount : Nat
  /-- Whether the keeper of the stack takes backups for the depot. -/
  hasBackup : Bool
  /-- Whether the depot shows the guard of the platform. -/
  hasGuard : Bool
  /-- The instances of the names, by their numbers. -/
  current : OrderedMap String Nat
  /-- The instances that were ever handed out. -/
  instances : Array StoreInstance

namespace Depot

instance : Inhabited Depot := ⟨⟨default, 0, false, false, .empty, #[]⟩⟩

/-- A depot over a stack. -/
def ofStack (stack : Stack) (shardCount : Nat) (hasBackup hasGuard : Bool) : Depot :=
  ⟨stack, shardCount, hasBackup, hasGuard, .empty, #[]⟩

/-! ## Opening -/

/-- A depot over a new engine with the layers that settings ask for. The task of the guard is
started. -/
def open? (settings : Settings) (p : Platform) : Except StoreError Depot × Platform :=
  let p := { p with engine := .empty, outage := none }
  let guard := settings.cap.map fun cap =>
    (((SpaceGuard.new cap).setSource .partitions).setPeriod settings.period p.clock).start p.clock
  match Stack.assemble? settings.backup guard settings.budget p with
  | (.error e, p) => (.error e, p)
  | (.ok stack, p) =>
    (.ok (ofStack stack settings.shardCount stack.keeper.isSome stack.isGuarded), p)

/-! ## Instances -/

def instanceAt (d : Depot) (i : Nat) : StoreInstance := d.instances.getD i default

def entity (d : Depot) (i : Nat) (keys : KeyKind) (values : ValueKind) :
    EntityStore keys.Carrier values.Carrier :=
  ⟨(d.instanceAt i).name, Layout.json keys values,
    Shards.ofCount d.shardCount fun key => Bytes.toNat (keys.codec.encode key)⟩

def texts (d : Depot) (i : Nat) (keys : KeyKind) : EntityStore keys.Carrier String :=
  ⟨(d.instanceAt i).name, Layout.texts keys,
    Shards.ofCount d.shardCount fun key => Bytes.toNat (keys.codec.encode key)⟩

def queue (d : Depot) (i : Nat) (values : ValueKind) : Queue values.Carrier :=
  ⟨d.entity i .signed values⟩

def sealedStore (d : Depot) (i : Nat) (keys : KeyKind) (values : ValueKind) :
    SealedStore keys.Carrier values.Carrier :=
  ⟨d.texts i keys, (d.instanceAt i).encryptor.getD .null, values.json⟩

def envelopeStore (d : Depot) (i : Nat) (keys : KeyKind) (values : ValueKind) :
    EnvelopeStore keys.Carrier values.Carrier :=
  ⟨d.texts i keys, (d.instanceAt i).encryptor, values.json⟩

/-! ## Operations -/

/-- Runs an operation alone on a partition of a stack, with the bounds of its queue. -/
def runOperation {α : Type} (partition : PartitionId) (op : Operation α) (s : Stack)
    (head tail : Int) : Except StoreError α × Stack × Int × Int :=
  let (result, s) := op.runAlone (fun c s => s.call partition c) ⟨s, head, tail⟩
  (result, s.base, s.head, s.tail)

/-- Runs an operation on an instance. -/
def perform {α : Type} (d : Depot) (i : Nat) (op : Operation α) : Except StoreError α × Depot :=
  let store := d.instanceAt i
  let (result, stack, head, tail) := runOperation store.partition op d.stack store.head store.tail
  (result, { d with stack, instances := d.instances.setIfInBounds i { store with head, tail } })

/-- Runs an operation on a partition without a store. -/
def performRaw {α : Type} (d : Depot) (partition : PartitionId) (op : Operation α) :
    Except StoreError α × Depot :=
  let (result, stack, _, _) := runOperation partition op d.stack 0 0
  (result, { d with stack })

/-- A nonce that was never used. -/
def nextNonce (d : Depot) : Gcm.Nonce × Depot :=
  let (n, platform) := d.stack.platform.nextSerial
  (Gcm.Nonce.ofSerial n, { d with stack := { d.stack with platform } })

/-! ## Stores by name -/

/-- The instance of a name, which is made unless there is one; one of another type is an error. What
is done to make it stays done if it fails. -/
def cached (d : Depot) (name : String) (type : StoreType)
    (build : Stack → Except StoreError StoreInstance × Stack) : Except StoreError Nat × Depot :=
  match d.current.get? name with
  | some i =>
    if (d.instanceAt i).type = type then (.ok i, d)
    else (.error (.invalidOperation (.otherType name)), d)
  | none =>
    match build d.stack with
    | (.error e, stack) => (.error e, { d with stack })
    | (.ok store, stack) =>
      (.ok d.instances.size,
        { d with
          stack
          current := d.current.insert name d.instances.size
          instances := d.instances.push store })

/-- An instance over the partition of a name. -/
def build (name : String) (type : StoreType) (encryptor : Option Encryptor) (s : Stack) :
    Except StoreError StoreInstance × Stack :=
  match s.openPartition name with
  | (.error e, s) => (.error (.storage e), s)
  | (.ok partition, s) => (.ok ⟨name, type, partition, 0, 0, encryptor⟩, s)

def openEntity (d : Depot) (name : String) (keys : KeyKind) (values : ValueKind) :
    Except StoreError Nat × Depot :=
  d.cached name (.entity keys values) (build name (.entity keys values) none)

/-- The queue of a name, which begins at a given offset if it has no items. -/
def openQueue (d : Depot) (name : String) (values : ValueKind) (start : Int) :
    Except StoreError Nat × Depot :=
  d.cached name (.queue values) fun s =>
    match build name (.queue values) none s with
    | (.error e, s) => (.error e, s)
    | (.ok store, s) =>
      let items : EntityStore Int64 values.Carrier :=
        ⟨name, Layout.json .signed values, Shards.ofCount d.shardCount fun _ => 0⟩
      match runOperation store.partition (Queue.mk items |>.recover start) s 0 0 with
      | (.error e, s, _, _) => (.error e, s)
      | (.ok (), s, head, tail) => (.ok { store with head, tail }, s)

def openSealed (d : Depot) (name : String) (keys : KeyKind) (values : ValueKind)
    (encryptor : Encryptor) : Except StoreError Nat × Depot :=
  d.cached name (.sealed keys values) (build name (.sealed keys values) (some encryptor))

def openEnvelope (d : Depot) (name : String) (keys : KeyKind) (values : ValueKind)
    (encryptor : Option Encryptor) : Except StoreError Nat × Depot :=
  d.cached name (.envelope keys values) (build name (.envelope keys values) encryptor)

/-- Gives up the store of a name and empties its partition. -/
def remove (d : Depot) (name : String) : Except StoreError Unit × Depot :=
  let (result, stack) := d.stack.removePartition name
  (result.mapError .storage, { d with stack, current := d.current.erase name })

def close (d : Depot) : Except StoreError Unit × Depot :=
  let (result, stack) := d.stack.close
  (result.mapError .storage, { d with stack, current := .empty })

def snapshot (d : Depot) : Except StoreError BackupRecord × Depot :=
  match d.stack.keeper, d.hasBackup with
  | some k, true =>
    let (result, stack) := d.stack.snapshot k
    (result, { d with stack })
  | _, _ => (.error (.invalidOperation .backupNotConfigured), d)

def inspect (d : Depot) : String :=
  let shown (inside : Option String) : String :=
    match inside with
    | some text => "Some(" ++ text ++ ")"
    | none => "None"
  let keeper := if d.hasBackup then d.stack.keeper.map Keeper.inspect else none
  let guard := if d.hasGuard then d.stack.platform.guard.map SpaceGuard.inspect else none
  "StoreProvider \x7b shard_count: " ++ toString d.shardCount ++ ", backup: " ++ shown keeper ++
    ", checker: " ++ shown guard ++ ", .. \x7d"

/-- A queue in a listing. -/
def inspectQueue (d : Depot) (i : Nat) : String :=
  let store := d.instanceAt i
  "SequentialStore \x7b entity: " ++ Quoted.quote store.name ++ ", head_offset: " ++
    toString store.head ++ ", tail_offset: " ++ toString store.tail ++ ", .. \x7d"

end Depot

end SnapshotStore
