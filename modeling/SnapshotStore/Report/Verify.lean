import SnapshotStore.Report.Basic

/-!
The check of a backup: whether the snapshot of each entity that the manifest lists can be read, and
what else lies in the backup directory: directories of no backup, snapshots of entities that the
manifest does not list, and a manifest that was not moved to its place.
-/

namespace SnapshotStore.Report

/-- How the reading of a snapshot ended: with a number of entries or an error. -/
structure SnapshotCheck where
  entity : String
  result : Except StoreError Nat
  deriving Repr

/-- What a check found. -/
structure Verification where
  id : Id
  checks : List SnapshotCheck
  /-- The directories beside that of the backup, in ascending order. -/
  orphans : List String
  /-- The names of snapshots that the manifest does not list, in ascending order. -/
  unlisted : List String
  /-- Whether a manifest is left under its temporary name. -/
  leftover : Bool
  deriving Repr

namespace Verification

def isValid (v : Verification) : Bool := v.checks.all fun c => c.result.toBool

/-- Texts in ascending order. -/
def ascending (texts : List String) : List String := texts.mergeSort fun a b => decide (a ≤ b)

/-- The names of directories other than that of the backup, as they are shown. -/
def orphansAmong (id : Id) (nodes : List (Bytes × DiskNode)) : List String :=
  ascending <| nodes.filterMap fun (bytes, node) =>
    match node with
    | .directory =>
      let name := Utf8.decodeLossy bytes
      if name = id.render then none else some name
    | .file _ => none

/-- The name of the entity of a snapshot's file, or the file's own name if it is the encoded name of
none. -/
def entityOf? (fileName : String) : Option String :=
  (FileName.stem? fileName).map fun stem =>
    match FileName.decode stem with
    | .ok entity => entity
    | .error _ => fileName

/-- The names of the snapshots that the manifest does not list. -/
def unlistedAmong (stores : List String) (nodes : List (Bytes × DiskNode)) : List String :=
  ascending <| (nodes.filterMap fun (bytes, _) => entityOf? (Utf8.decodeLossy bytes)).filter
    fun name => !stores.contains name

/-- The names in a directory. -/
def listing (d : Disk) (path : Path) : Except Fault (List (Bytes × DiskNode)) :=
  (d.call (.list path)).1.mapError Fault.disk

/-- Checks the backup in a directory. -/
def collect (d : Disk) (path : String) : Except Fault Verification := do
  let record ← currentBackup d path
  let checks : List SnapshotCheck := record.stores.map fun entity =>
    ⟨entity, (snapshotEntries d path record entity).map List.length⟩
  let directory := Path.ofDirectory path
  let beside ← listing d directory
  let inside ← listing d (Place.backup directory record.id)
  pure {
    id := record.id
    checks
    orphans := orphansAmong record.id beside
    unlisted := unlistedAmong record.stores inside
    leftover := d.contains (Place.temporary directory) }

/-- The line of a snapshot. -/
def checkLine (c : SnapshotCheck) : String :=
  match c.result with
  | .ok count => s!"  [OK]   {c.entity} ({count} entries)"
  | .error e => s!"  [FAIL] {c.entity}: {e.message}"

/-- What was found, as lines of text. -/
def text (v : Verification) : String :=
  lines ([s!"Verifying backup {v.id.render}"] ++
    v.checks.map checkLine ++
    v.orphans.map (fun name => s!"  [WARN] unreferenced directory {name}") ++
    v.unlisted.map (fun name => s!"  [WARN] snapshot of {name} is not in the manifest") ++
    (if v.leftover then [s!"  [WARN] leftover {Manifest.temporaryName}"] else []) ++
    [if v.isValid then "Backup is valid" else "Backup is CORRUPTED"])

/-- How the reading of a snapshot ended, as JSON. -/
def checkJson (c : SnapshotCheck) : Json :=
  let (entries, error) : Json × Json := match c.result with
    | .ok count => (.int count, .null)
    | .error e => (.null, .string e.message)
  .object [("name", .string c.entity), ("entries", entries), ("error", error)]

def toJson (v : Verification) : Json :=
  .object [("id", .string v.id.render),
    ("stores", .array (v.checks.map checkJson)),
    ("orphans", .array (v.orphans.map .string)),
    ("unlisted", .array (v.unlisted.map .string)),
    ("leftover_temp", .bool v.leftover)]

/-- Checks the backup in a directory and reports what was found. It fails, too, if a listed snapshot
cannot be read. -/
def run (d : Disk) (path format : String) : Outcome :=
  match collect d path with
  | .error fault => .failed "" fault
  | .ok v =>
    let output := if format = jsonFormat then v.toJson.renderIndented ++ "\n" else v.text
    if v.isValid then .done output else .failed output (.stated "Verification failed")

end Verification

end SnapshotStore.Report
