import SnapshotStore.Backup.Keeper
import SnapshotStore.Platform
import SnapshotStore.Settings

/-!
The stack of layers on a platform, from the inside out: a backup keeper, if there is one, through
which partitions are opened and removed; the space guard, if it is asked, which refuses to put into
a partition while the space is full; and a time budget, if there is one, for each call on a
partition.
-/

namespace SnapshotStore

namespace Platform

/-- The answer to a request of a keeper, and the platform after it. -/
def answer : (r : KeeperRequest) → Platform → r.Reply × Platform
  | .disk c, p => p.diskCall c
  | .openPartition name, p => p.openPartition name
  | .removePartition name, p => p.removePartition name
  | .closeEngine, p => p.closeEngine
  | .call id c, p => p.call none id c
  | .admitWrite entity, p => (gate p (Outage.writeName entity), p)
  | .admitRead entity, p => (gate p (Outage.readName entity), p)
  | .freshId, p =>
    let (n, p) := p.nextSerial
    (Id.ofSerial n, p)
  | .now, p => (p.now, p)
where
  /-- Fails as the outage says. -/
  gate (p : Platform) (name : String) : Except StoreError Unit :=
    match (p.outage.getD .none).failure? name with
    | some text => .error (.codec (.stated text))
    | none => .ok ()

end Platform

/-- The layers on a platform. -/
structure Stack where
  platform : Platform
  keeper : Option Keeper
  /-- Whether putting into a partition depends on the space guard. -/
  isGuarded : Bool
  /-- The time budget of a call on a partition in microseconds. -/
  budget : Option Nat

namespace Stack

variable {ε α : Type}

instance : Inhabited Stack := ⟨⟨default, none, false, none⟩⟩

/-- Runs an activity of a keeper on a platform. -/
def runKeeper (k : Keeper) (p : Platform) (body : Activity ε α) :
    (Except ε α × Keeper) × Platform :=
  Script.run (I := keeperInterface) Platform.answer (body.run.run k) p

/-- Runs an activity of the keeper of a stack. -/
def keep (s : Stack) (k : Keeper) (body : Activity ε α) : Except ε α × Stack :=
  let ((result, k), platform) := runKeeper k s.platform body
  (result, { s with platform, keeper := some k })

/-- A handle on the partition of a name, which is created unless it exists. -/
def openPartition (s : Stack) (name : String) : Except StorageError PartitionId × Stack :=
  match s.keeper with
  | some k => s.keep k (Keeper.openPartition name)
  | none =>
    let (result, platform) := s.platform.openPartition name
    (result, { s with platform })

/-- Empties the partition of a name and gives the name up. -/
def removePartition (s : Stack) (name : String) : Except StorageError Unit × Stack :=
  match s.keeper with
  | some k => s.keep k (Keeper.removePartition name)
  | none =>
    let (result, platform) := s.platform.removePartition name
    (result, { s with platform })

/-- Whether all handles on a partition are one and the same. Each layer that stands between a handle
and its partition, the outages of the platform included, belongs to its own handle. A keeper stands
there only while a partition is opened or removed. -/
def sharesHandles (s : Stack) : Bool :=
  s.platform.outage.isNone && !s.isGuarded && s.budget.isNone

/-- Stops the periodic task of the guard, if it is asked in this stack. -/
def stopGuard (s : Stack) : Stack :=
  if s.isGuarded then
    { s with platform := { s.platform with guard := s.platform.guard.map SpaceGuard.stop } }
  else s

/-- Closes all layers: the guard stops, the keeper takes a last backup, the engine closes. -/
def close (s : Stack) : Except StorageError Unit × Stack :=
  let s := s.stopGuard
  match s.keeper with
  | some k => s.keep k (Keeper.close s.platform.engine.pageBound)
  | none =>
    let (result, platform) := s.platform.closeEngine
    (result, { s with platform })

/-- Whether a call is refused for want of space. -/
def isRefused (s : Stack) : Call → Bool
  | .put _ _ => s.isGuarded && (s.platform.guard.map SpaceGuard.isFull).getD false
  | _ => false

/-- The answer to a call on a partition through all layers. -/
def call (s : Stack) (id : PartitionId) (c : Call) : Except StorageError c.Answer × Stack :=
  if s.isRefused c then (.error (.storageFull (s.platform.engine.partition id).name), s)
  else
    let (result, platform) := s.platform.call s.budget id c
    (result, { s with platform })

def snapshot (s : Stack) (k : Keeper) : Except StoreError BackupRecord × Stack :=
  s.keep k (Keeper.snapshot s.platform.engine.pageBound)

/-- A keeper over a platform that has loaded the last backup, unless its directory cannot be
made. -/
def createKeeper (p : Platform) (settings : BackupSettings) :
    Except StoreError Keeper × Platform :=
  let k := Keeper.new settings.path settings.format settings.batchSize
  let ((result, k), p) := runKeeper k p Keeper.create
  (result.map fun _ => k, p)

/-- A stack with the given layers over the engine of a platform. The keeper comes first, so that
what it restores is not held back by the guard. -/
def assemble? (backup : Option BackupSettings) (guard : Option SpaceGuard) (budget : Option Nat)
    (p : Platform) : Except StoreError Stack × Platform :=
  let p := { p with guard := none }
  match backup with
  | none => (.ok ⟨{ p with guard }, none, guard.isSome, budget⟩, p)
  | some settings =>
    match createKeeper p settings with
    | (.error e, p) => (.error e, p)
    | (.ok keeper, p) => (.ok ⟨{ p with guard }, some keeper, guard.isSome, budget⟩, p)

end Stack

end SnapshotStore
