import SnapshotStore.Backup.Access

/-!
The backup keeper: it stands before the engine, tracks the partitions that are opened through it,
and writes all of them to a snapshot directory of its own that the manifest names once it is
complete. The replacement of the manifest is the moment at which a new backup takes the place of the
one before; what else lies in the backup directory under the name of an identifier is then removed.

A keeper that is created loads the backup that the manifest names. If any part of it cannot be
loaded, the partitions loaded so far and all backups are discarded, and the keeper starts with
nothing.
-/

namespace SnapshotStore

/-- What a keeper is doing. -/
inductive KeeperPhase where
  | empty
  | restoring
  | ready
  | backingUp
  | closed
  deriving DecidableEq, Repr, Inhabited

def KeeperPhase.name : KeeperPhase → String
  | empty => "Empty"
  | restoring => "Restoring"
  | ready => "Ready"
  | backingUp => "BackingUp"
  | closed => "Closed"

/-- A backup keeper. -/
structure Keeper where
  /-- The path of the backup directory, as given. -/
  path : String
  format : Format
  batchSize : Nat
  /-- The names of the partitions that the next snapshot holds. -/
  tracked : OrderedMap String Unit
  phase : KeeperPhase

/-- An activity of a keeper: a script that changes it and may end with an error. -/
abbrev Activity (ε α : Type) := ExceptT ε (StateT Keeper (Script keeperInterface)) α

namespace Activity

variable {ε α : Type}

def ask (r : KeeperRequest) : Activity ε r.Reply :=
  ExceptT.lift (StateT.lift (Script.request (I := keeperInterface) r))

/-- The value of a reply, or its error as one of the activity. -/
def ofExcept {δ : Type} (wrap : δ → ε) (r : Except δ α) : Activity ε α :=
  ExceptT.mk (pure (r.mapError wrap))

/-- The activity that makes one call on the disk. -/
def disk (c : DiskCall) : Activity StoreError c.Answer := do
  ofExcept StoreError.io (← ask (.disk c))

/-- How an activity ends. -/
def outcome {δ : Type} (body : Activity ε α) : Activity δ (Except ε α) :=
  ExceptT.lift body.run

/-- An activity whose error is wrapped in another one. -/
def wrapping {δ : Type} (wrap : δ → ε) (body : Activity δ α) : Activity ε α := do
  ofExcept wrap (← outcome body)

def change (f : Keeper → Keeper) : Activity ε Unit := modify f

end Activity

namespace Keeper

def directory (k : Keeper) : Path := Path.ofDirectory k.path

/-- The directory of the backup of an identifier. -/
def backupPath (k : Keeper) (id : Id) : Path := Place.backup k.directory id

/-- The names that are tracked, in ascending order. -/
def trackedNames (k : Keeper) : List String := k.tracked.keys

def track (name : String) (k : Keeper) : Keeper := { k with tracked := k.tracked.insert name () }

def untrack (name : String) (k : Keeper) : Keeper := { k with tracked := k.tracked.erase name }

def inPhase (phase : KeeperPhase) (k : Keeper) : Keeper := { k with phase }

/-! ## Manifests -/

/-- The manifest in the backup directory, if there is one. -/
def loadManifest : Activity StoreError (Option Manifest) := do
  let k ← get
  let file ← Activity.ask (.disk (.read (Place.manifest k.directory)))
  Activity.ofExcept (fun e => e) (Manifest.ofFile file)

/-- Writes a manifest under its temporary name, moves it to its place and makes that last. If it does
not get to its place, what was written is removed, and the manifest before it stays. -/
def saveManifest (manifest : Manifest) : Activity StoreError Unit := do
  let k ← get
  let commit : Activity StoreError Unit := do
    Activity.disk (.write (Place.temporary k.directory) manifest.write)
    Activity.disk (.rename (Place.temporary k.directory) (Place.manifest k.directory))
  match ← Activity.outcome commit with
  | .ok () => Activity.disk (.sync k.directory)
  | .error e =>
    let _ ← Activity.ask (.disk (.removeFile (Place.temporary k.directory)))
    throw e

/-- Whether the manifest in the backup directory names a backup. -/
def isReferenced (id : Id) : Activity StoreError Bool := do
  match ← Activity.outcome loadManifest with
  | .ok (some manifest) => pure (manifest.references id.render)
  | _ => pure false

/-! ## Clearing away -/

/-- Removes the directories that are named like an identifier other than `keep`, out of a list of
names. What cannot be removed is left. -/
def removeStale (keep : Option Id) : List String → Activity StoreError Unit
  | [] => pure ()
  | name :: rest => do
    match Id.parse? name with
    | some id =>
      if some id ≠ keep then
        let k ← get
        let _ ← Activity.ask (.disk (.removeTree (k.directory ++ [name])))
    | none => pure ()
    removeStale keep rest

/-- Removes all backups but one from the backup directory. A name that is no text is that of none. -/
def clearStale (keep : Option Id) : Activity StoreError Unit := do
  let k ← get
  match ← Activity.ask (.disk (.list k.directory)) with
  | .ok names => removeStale keep (names.filterMap fun entry => Utf8.decode? entry.1)
  | .error _ => pure ()

/-! ## Snapshots -/

/-- The least key above another one. -/
def keyAfter (key : Bytes) : Bytes := key ++ [0]

/-- Where the page after a page begins: right after its last key. -/
def nextStart (start : Option Bytes) (page : List Entry) : Option Bytes :=
  match page.getLast? with
  | some (key, _) => some (keyAfter key)
  | none => start

/-- The entries of a partition from a key on, read page by page until one is not full. More pages
than expected are an error. -/
def readPages (partition : Nat) (batchSize : Nat) :
    (pages : Nat) → (start : Option Bytes) → Activity StoreError (List Entry)
  | 0, _ => throw (.invalidOperation .endlessPages)
  | pages + 1, start => do
    let page ← Activity.ofExcept StoreError.storage
      (← Activity.ask (.call partition (.page start batchSize)))
    if page.length < batchSize then pure page
    else do
      let rest ← readPages partition batchSize pages (nextStart start page)
      pure (page ++ rest)

/-- All entries of the partition of a name. -/
def readAll (pages : Nat) (name : String) : Activity StoreError (List Entry) := do
  let k ← get
  let partition ← Activity.ofExcept StoreError.storage (← Activity.ask (.openPartition name))
  readPages partition k.batchSize pages none

def writeSnapshot (id : Id) (entity : String) (entries : List Entry) :
    Activity StoreError Unit := do
  let k ← get
  Activity.ofExcept (fun e => e) (← Activity.ask (.admitWrite entity))
  Activity.disk (.write (Place.snapshot k.directory id entity) (k.format.write entries))

def writeSnapshots (pages : Nat) (id : Id) : List String → Activity StoreError Unit
  | [] => pure ()
  | name :: rest => do
    Activity.wrapping (StoreError.backupFailed name) do
      let entries ← readAll pages name
      writeSnapshot id name entries
    writeSnapshots pages id rest

/-- Writes a backup of all tracked partitions and makes the manifest name it. -/
def writeBackup (pages : Nat) (id : Id) : Activity StoreError BackupRecord := do
  let k ← get
  Activity.disk (.makeDirectories (k.backupPath id))
  writeSnapshots pages id k.trackedNames
  Activity.disk (.sync (k.backupPath id))
  let record : BackupRecord := ⟨id, k.format, ← Activity.ask .now, k.trackedNames⟩
  saveManifest (.single record)
  pure record

/-- Takes a backup. If that fails, the backup before it stays and what was written of the new one is
removed, unless the manifest names the new one already. Each partition is read in at most `pages`
pages. -/
def snapshot (pages : Nat) : Activity StoreError BackupRecord := do
  if (← get).phase = .closed then throw (.invalidOperation .backupClosed)
  Activity.change (inPhase .backingUp)
  let id ← Activity.ask .freshId
  let result ← Activity.outcome (writeBackup pages id)
  Activity.change (inPhase .ready)
  match result with
  | .ok record =>
    clearStale (some id)
    pure record
  | .error e =>
    if ¬ (← isReferenced id) then
      let _ ← Activity.ask (.disk (.removeTree ((← get).backupPath id)))
    throw e

/-! ## Restoring -/

def loadEntries (partition : Nat) : List Entry → Activity StoreError Unit
  | [] => pure ()
  | (key, value) :: rest => do
    Activity.ofExcept StoreError.storage (← Activity.ask (.call partition (.put key value)))
    loadEntries partition rest

def readSnapshot (id : Id) (entity : String) : Activity StoreError (List Entry) := do
  let k ← get
  Activity.ofExcept (fun e => e) (← Activity.ask (.admitRead entity))
  let file ← Activity.ask (.disk (.read (Place.snapshot k.directory id entity)))
  Activity.ofExcept (fun e => e) (k.format.ofFile file)

/-- Loads the snapshots of entities. Gives the names of the partitions that were opened for it, and
how it ended. -/
def restoreStores (id : Id) :
    List String → Activity StoreError (List String × Except StoreError Unit)
  | [] => pure ([], .ok ())
  | name :: rest => do
    let reading := Activity.wrapping (StoreError.restoreFailed name) (readSnapshot id name)
    match ← Activity.outcome reading with
    | .error e => pure ([], .error e)
    | .ok entries =>
      match ← Activity.ask (.openPartition name) with
      | .error e => pure ([], .error (.storage e))
      | .ok partition =>
        match ← Activity.outcome
            (Activity.wrapping (StoreError.restoreFailed name) (loadEntries partition entries)) with
        | .error e => pure ([name], .error e)
        | .ok () =>
          Activity.change (track name)
          let (names, result) ← restoreStores id rest
          pure (name :: names, result)

/-- The backup that is to be restored, if there is one; it must be in the keeper's format. -/
def restorable : Activity StoreError (Option BackupRecord) := do
  match ← loadManifest with
  | none => pure none
  | some manifest =>
    match manifest.latest? with
    | none => pure none
    | some record =>
      let k ← get
      if record.format = k.format then pure (some record)
      else
        throw (.malformedMetadata
          (.formatMismatch record.id.render record.format.name k.format.name))

/-- Removes partitions that were opened for a restore, and tracks them no more. -/
def discardStores : List String → Activity StoreError Unit
  | [] => pure ()
  | name :: rest => do
    let _ ← Activity.ask (.removePartition name)
    Activity.change (untrack name)
    discardStores rest

/-- Undoes a restore and removes all backups. -/
def discard (names : List String) : Activity StoreError Unit := do
  discardStores names
  let k ← get
  let _ ← Activity.ask (.disk (.removeFile (Place.manifest k.directory)))
  let _ ← Activity.ask (.disk (.removeFile (Place.temporary k.directory)))
  clearStale none

/-- Loads the last backup, or discards all of them. -/
def restore : Activity StoreError Unit := do
  match ← Activity.outcome restorable with
  | .error _ => discard []
  | .ok none => pure ()
  | .ok (some record) =>
    let (names, result) ← restoreStores record.id record.stores
    match result with
    | .ok () => pure ()
    | .error _ => discard names

/-- A keeper of a backup directory that has loaded nothing. -/
def new (path : String) (format : Format) (batchSize : Nat) : Keeper :=
  ⟨path, format, max batchSize 1, .empty, .empty⟩

/-- Makes the backup directory and loads the last backup from it. -/
def create : Activity StoreError Unit := do
  let k ← get
  Activity.disk (.makeDirectories k.directory)
  Activity.change (inPhase .restoring)
  restore
  Activity.change (inPhase .ready)

/-! ## Partitions -/

def openPartition (name : String) : Activity StorageError Nat := do
  let partition ← Activity.ofExcept (fun e => e) (← Activity.ask (.openPartition name))
  Activity.change (track name)
  pure partition

def removePartition (name : String) : Activity StorageError Unit := do
  Activity.ofExcept (fun e => e) (← Activity.ask (.removePartition name))
  Activity.change (untrack name)

/-- Takes a last backup, unless the keeper is closed, and closes the engine. A backup that fails is
no error. -/
def close (pages : Nat) : Activity StorageError Unit := do
  if (← get).phase ≠ .closed then
    let _ ← Activity.outcome (snapshot pages)
    Activity.change (inPhase .closed)
  Activity.ofExcept (fun e => e) (← Activity.ask .closeEngine)

def inspect (k : Keeper) : String :=
  "BackupRestoreManager \x7b backup_path: " ++ Quoted.quote k.path ++ ", format: " ++
    k.format.name ++ ", state: " ++ k.phase.name ++ ", .. \x7d"

end Keeper

end SnapshotStore
