import SnapshotStore.Disk
import SnapshotStore.Id
import SnapshotStore.Space.Guard
import SnapshotStore.Store.Engine
import SnapshotStore.Store.Outage
import SnapshotStore.Time.Stamp

/-!
The platform below all layers: the engine with its outage, the disk, a clock in microseconds, the
space guard whose task the clock drives, and a supply of numbers that are used once. The clock moves
only while something waits, and who waits is woken at a whole millisecond of it.
-/

namespace SnapshotStore

/-- What the layers stand on. -/
structure Platform where
  clock : Nat
  engine : Engine
  outage : Option Outage
  guard : Option SpaceGuard
  disk : Disk
  /-- The next number that was never used. -/
  serial : Nat
  deriving Inhabited

namespace Platform

/-- A platform with a disk and nothing else. -/
def new (disk : Disk) : Platform := ⟨0, .empty, none, none, disk, 0⟩

/-- Lets time pass, and lets the periodic task of the guard do what is due in it. -/
def pass (p : Platform) (micros : Nat) : Platform :=
  { p with
    clock := p.clock + micros
    guard := p.guard.map fun g => g.advance p.clock (p.clock + micros) (some p.engine.totalSize) }

/-- Gives way to the periodic task without letting time pass. -/
def giveWay (p : Platform) : Platform := p.pass 0

/-- When a timer that is set to a moment goes off: at the whole millisecond of the clock that is the
first one not before it. -/
def tick (moment : Nat) : Nat := (moment + 999) / 1000 * 1000

/-- Waits for a timer that is set to a moment. -/
def sleepUntil (p : Platform) (moment : Nat) : Platform :=
  if tick moment ≤ p.clock then p else p.pass (tick moment - p.clock)

/-- Waits, unless there is nothing to wait for. -/
def wait (p : Platform) (micros : Nat) : Platform :=
  if micros = 0 then p else p.sleepUntil (p.clock + micros)

/-- Forgets the engine with its partitions, which from then on nobody can measure. -/
def dropEngine (p : Platform) : Platform :=
  { p with
    engine := .empty
    outage := none
    guard := p.guard.map fun g => if g.source = .partitions then g.setSource .failing else g }

/-- A number that was never used. -/
def nextSerial (p : Platform) : Nat × Platform := (p.serial, { p with serial := p.serial + 1 })

/-! ## Calls on partitions -/

/-- What a call does to its partition, and its answer. -/
def act (p : Platform) (id : PartitionId) (c : Call) : c.Answer × Platform :=
  let (answer, engine) := p.engine.call id c
  (answer, { p with engine })

/-- Removes the first entry that was read, if the outage says that it vanishes. -/
def vanish (p : Platform) (id : PartitionId) : (c : Call) → c.Answer → Platform
  | .first, entry =>
    match p.outage with
    | some outage =>
      if outage.vanishes then
        let engine := match entry with
          | some (key, _) => (p.engine.call id (.remove key)).2
          | none => p.engine
        { p with engine, outage := some { outage with vanishes := false } }
      else p
    | none => p
  | _, _ => p

/-- Whether a wait that begins now is over when the budget is, if there is one. Both have timers, and
who is woken by both at once has not been late. -/
def fits (p : Platform) (budget : Option Nat) (delay : Nat) : Bool :=
  match budget with
  | none => true
  | some b => tick (p.clock + delay) ≤ tick (p.clock + b)

/-- The answer to a call within a time budget in microseconds. A call that is cut off has acted only
if it acts before it is held up, and then nothing vanishes, because that comes last. -/
def call (p : Platform) (budget : Option Nat) (id : PartitionId) (c : Call) :
    Except StorageError c.Answer × Platform :=
  let outage := p.outage.getD .none
  let delay := outage.delay c.operation
  match p.fits budget delay, outage.failure? c.operation with
  | true, some text => (.error (.corrupted text), p.wait delay)
  | true, none =>
    let (answer, p) :=
      if outage.actsFirst then
        let (answer, p) := p.act id c
        (answer, p.wait delay)
      else (p.wait delay).act id c
    (.ok answer, p.vanish id c answer)
  | false, failure =>
    let b := budget.getD 0
    let p := if outage.actsFirst ∧ failure.isNone then (p.act id c).2 else p
    (.error (.timeout c.operation (b * 1000)), p.sleepUntil (p.clock + b))

/-! ## Calls on the engine -/

/-- Fails as the outage says, or does what it is asked to. -/
def attempt {α : Type} (p : Platform) (name : String)
    (action : Platform → Except StorageError α × Platform) : Except StorageError α × Platform :=
  match (p.outage.getD .none).failure? name with
  | some text => (.error (.corrupted text), p)
  | none => action p

/-- A handle on the partition of a name, which is created unless it exists. -/
def openPartition (p : Platform) (name : String) : Except StorageError PartitionId × Platform :=
  p.attempt Outage.openName fun p =>
    let (result, engine) := p.engine.openPartition name
    (result, { p with engine })

/-- Empties the partition of a name and gives the name up. -/
def removePartition (p : Platform) (name : String) : Except StorageError Unit × Platform :=
  p.attempt Outage.removeName fun p =>
    let (result, engine) := p.engine.removePartition name
    (result, { p with engine })

/-- Closes the engine. -/
def closeEngine (p : Platform) : Except StorageError Unit × Platform :=
  p.attempt Outage.closeName fun p => (.ok (), { p with engine := p.engine.close })

/-! ## Calls on the disk -/

/-- The answer of the disk to a call, during which the periodic task may run. -/
def diskCall (p : Platform) (c : DiskCall) : Except DiskFault c.Answer × Platform :=
  let p := p.giveWay
  let (answer, disk) := p.disk.call c
  (answer, { p with disk })

/-- The time of the clock as a point in time. -/
def now (p : Platform) : Stamp :=
  ⟨1700000000 + (p.clock / 1000000 : Nat), p.clock % 1000000 * 1000⟩

end Platform

end SnapshotStore
