import SnapshotStore.Backup.Keeper
import SnapshotStore.Store.Engine

/-!
Sites: an engine and a disk with the identifier and the time that the next backup gets, and with
what goes wrong. Each call meets the next of the faults that await its kind: it fails, or it is done.
A call that fails has no effect, but for those that take steps: the writing of a file may have made
it and put a part of its content there, or all of it, and the removal of a directory may have removed
some of what is below. When no fault is left, nothing fails that the engine and the disk can do.
-/

namespace SnapshotStore

/-- What goes wrong in a call on the disk. -/
structure DiskFailure where
  fault : DiskFault
  /-- How many bytes of a file were written by then, if it was made. -/
  written : Option Nat
  /-- Which locations in a directory were removed by then, each with all that was below it. -/
  removed : List Location
  deriving DecidableEq, Repr

namespace DiskFailure

/-- The failure of a call that has had no effect. -/
def clean (fault : DiskFault) : DiskFailure := ⟨fault, none, []⟩

/-- What a call that fails leaves of a disk. -/
def leaves (failure : DiskFailure) (d : Disk) : DiskCall → Disk
  | .write path content =>
    match failure.written with
    | some bytes => (d.call (.write path (content.take bytes))).2
    | none => d
  | .removeTree path =>
    match d.find path with
    | .ok (place, .directory) => failure.removed.foldl (fun d q => d.eraseTree (place ++ q)) d
    | _ => d
  | _ => d

end DiskFailure

/-- Whether a call is done at once or not at all. -/
def DiskCall.atOnce : DiskCall → Bool
  | write _ _ | removeTree _ => false
  | _ => true

/-- What a keeper stands on. -/
structure Site where
  engine : Engine
  disk : Disk
  /-- The next identifier. -/
  id : Id
  now : Stamp
  /-- What becomes of the next calls on the engine and its partitions. -/
  engineFaults : List (Option StorageError)
  /-- What becomes of the next snapshots that are to be written or read. -/
  codecFaults : List (Option StoreError)
  /-- What becomes of the next calls on the disk. -/
  diskFaults : List (Option DiskFailure)

namespace Site

/-- A new engine on a disk, where nothing goes wrong. -/
def fresh (disk : Disk) : Site := ⟨.empty, disk, default, default, [], [], []⟩

/-- A call on the engine. -/
def onEngine {α : Type} (s : Site) (act : Engine → Except StorageError α × Engine) :
    Except StorageError α × Site :=
  match s.engineFaults.headD none with
  | some e => (.error e, { s with engineFaults := s.engineFaults.tail })
  | none =>
    ((act s.engine).1,
      { s with engine := (act s.engine).2, engineFaults := s.engineFaults.tail })

/-- A call on the disk. -/
def onDisk (s : Site) (c : DiskCall) : Except DiskFault c.Answer × Site :=
  match s.diskFaults.headD none with
  | some failure =>
    (.error failure.fault,
      { s with disk := failure.leaves s.disk c, diskFaults := s.diskFaults.tail })
  | none =>
    ((s.disk.call c).1, { s with disk := (s.disk.call c).2, diskFaults := s.diskFaults.tail })

/-- Whether a snapshot can be written or read. -/
def onCodec (s : Site) : Except StoreError Unit × Site :=
  (match s.codecFaults.headD none with
    | some e => .error e
    | none => .ok (),
    { s with codecFaults := s.codecFaults.tail })

/-- The answer to a request of a keeper, and the site after it. -/
def answer : (r : KeeperRequest) → Site → r.Reply × Site
  | .disk c, s => s.onDisk c
  | .openPartition name, s => s.onEngine fun e => e.openPartition name
  | .removePartition name, s => s.onEngine fun e => e.removePartition name
  | .closeEngine, s => s.onEngine fun e => (.ok (), e.close)
  | .call id c, s => s.onEngine fun e => (.ok (e.call id c).1, (e.call id c).2)
  | .admitWrite _, s | .admitRead _, s => s.onCodec
  | .freshId, s => (s.id, s)
  | .now, s => (s.now, s)

/-- Whether the next fault of its kind awaits a request. -/
def awaits (s : Site) : KeeperRequest → Bool
  | .disk _ => (s.diskFaults.headD none).isSome
  | .openPartition _ | .removePartition _ | .closeEngine | .call _ _ =>
    (s.engineFaults.headD none).isSome
  | .admitWrite _ | .admitRead _ => (s.codecFaults.headD none).isSome
  | .freshId | .now => false

/-! ## What a request leaves -/

variable {s s' s'' : Site}

/-- Two sites that differ in their faults at most. -/
structure Like (s s' : Site) : Prop where
  engine : s'.engine = s.engine
  disk : s'.disk = s.disk
  id : s'.id = s.id
  now : s'.now = s.now

theorem Like.refl (s : Site) : Like s s := ⟨rfl, rfl, rfl, rfl⟩

theorem Like.trans (h : Like s s') (h' : Like s' s'') : Like s s'' :=
  ⟨h'.engine.trans h.engine, h'.disk.trans h.disk, h'.id.trans h.id, h'.now.trans h.now⟩

/-- A site with another engine, as far as faults do not matter. -/
structure Engaged (s s' : Site) (engine : Engine) : Prop where
  engine : s'.engine = engine
  disk : s'.disk = s.disk
  id : s'.id = s.id
  now : s'.now = s.now

/-- A site with another disk, as far as faults do not matter. -/
structure Placed (s s' : Site) (disk : Disk) : Prop where
  engine : s'.engine = s.engine
  disk : s'.disk = disk
  id : s'.id = s.id
  now : s'.now = s.now

theorem Engaged.like (h : Engaged s s' s.engine) : Like s s' := ⟨h.engine, h.disk, h.id, h.now⟩

theorem Placed.like (h : Placed s s' s.disk) : Like s s' := ⟨h.engine, h.disk, h.id, h.now⟩

theorem onEngine_cases {α : Type} (s : Site) (act : Engine → Except StorageError α × Engine) :
    (∃ e s', s.onEngine act = (.error e, s') ∧ Like s s') ∨
      ∃ s', s.onEngine act = ((act s.engine).1, s') ∧ Engaged s s' (act s.engine).2 := by
  rw [onEngine]
  cases s.engineFaults.headD none with
  | some e => exact .inl ⟨e, _, rfl, rfl, rfl, rfl, rfl⟩
  | none => exact .inr ⟨_, rfl, rfl, rfl, rfl, rfl⟩

theorem onDisk_cases (s : Site) (c : DiskCall) :
    (∃ (failure : DiskFailure) (s' : Site), s.onDisk c = (.error failure.fault, s') ∧
        Placed s s' (failure.leaves s.disk c)) ∨
      ∃ s', s.onDisk c = ((s.disk.call c).1, s') ∧ Placed s s' (s.disk.call c).2 := by
  rw [onDisk]
  cases s.diskFaults.headD none with
  | some failure => exact .inl ⟨failure, _, rfl, rfl, rfl, rfl, rfl⟩
  | none => exact .inr ⟨_, rfl, rfl, rfl, rfl, rfl⟩

theorem leaves_of_atOnce {c : DiskCall} (atOnce : c.atOnce = true) (failure : DiskFailure)
    (d : Disk) : failure.leaves d c = d := by
  cases c with
  | write _ _ | removeTree _ => cases atOnce
  | makeDirectories _ | rename _ _ | removeFile _ | read _ | list _ | sync _ => rfl

/-- A call that is done at once fails without an effect, or is done. -/
theorem onDisk_atOnce_cases (s : Site) {c : DiskCall} (atOnce : c.atOnce = true) :
    (∃ fault s', s.onDisk c = (.error fault, s') ∧ Like s s') ∨
      ∃ s', s.onDisk c = ((s.disk.call c).1, s') ∧ Placed s s' (s.disk.call c).2 := by
  refine (s.onDisk_cases c).imp_left ?_
  rintro ⟨failure, s', answered, placed⟩
  rw [leaves_of_atOnce atOnce] at placed
  exact ⟨failure.fault, s', answered, placed.like⟩

/-- The writing of a file fails without an effect, or a file is written, which is the whole one if
that succeeds. -/
theorem onDisk_write_cases (s : Site) (path : Path) (content : Bytes) :
    (∃ fault s', s.onDisk (.write path content) = (.error fault, s') ∧ Like s s') ∨
      ∃ reply part s', s.onDisk (.write path content) = (reply, s') ∧
        Placed s s' (s.disk.call (.write path part)).2 ∧
        (reply = .ok () → part = content ∧ (s.disk.call (.write path part)).1 = .ok ()) := by
  rcases s.onDisk_cases (.write path content) with
    ⟨⟨fault, written, _⟩, s', answered, placed⟩ | ⟨s', answered, placed⟩
  · cases written with
    | none => exact .inl ⟨fault, s', answered, placed.like⟩
    | some bytes => exact .inr ⟨_, content.take bytes, s', answered, placed, nofun⟩
  · exact .inr ⟨_, content, s', answered, placed, fun done => ⟨rfl, done⟩⟩

/-- A call that no fault awaits is done. -/
theorem onDisk_of_spared {c : DiskCall} (spared : s.awaits (.disk c) = false) :
    ∃ s', s.onDisk c = ((s.disk.call c).1, s') ∧ Placed s s' (s.disk.call c).2 := by
  rw [awaits] at spared
  rw [onDisk]
  cases awaited : s.diskFaults.headD none with
  | some failure =>
    rw [awaited] at spared
    cases spared
  | none => exact ⟨_, rfl, rfl, rfl, rfl, rfl⟩

theorem like_onCodec (s : Site) : Like s s.onCodec.2 := ⟨rfl, rfl, rfl, rfl⟩

/-- Whether nothing goes wrong. -/
structure Calm (s : Site) : Prop where
  engine : s.engineFaults = []
  codec : s.codecFaults = []
  disk : s.diskFaults = []

theorem calm_fresh (disk : Disk) : (fresh disk).Calm := ⟨rfl, rfl, rfl⟩

theorem onEngine_of_calm {α : Type} (h : s.Calm)
    (act : Engine → Except StorageError α × Engine) :
    s.onEngine act = ((act s.engine).1, { s with engine := (act s.engine).2 }) := by
  obtain ⟨_, _, _, _, _, _, _⟩ := s
  obtain ⟨engine, codec, disk⟩ := h
  cases engine
  rfl

theorem onDisk_of_calm (h : s.Calm) (c : DiskCall) :
    s.onDisk c = ((s.disk.call c).1, { s with disk := (s.disk.call c).2 }) := by
  obtain ⟨_, _, _, _, _, _, _⟩ := s
  obtain ⟨engine, codec, disk⟩ := h
  cases disk
  rfl

theorem onCodec_of_calm (h : s.Calm) : s.onCodec = (.ok (), s) := by
  obtain ⟨_, _, _, _, _, _, _⟩ := s
  obtain ⟨engine, codec, disk⟩ := h
  cases codec
  rfl

end Site

end SnapshotStore
