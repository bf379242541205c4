import SnapshotStore.Report.Basic

/-!
The summary of a backup: what the manifest says of it, and for each entity the file of its snapshot
with its size.
-/

namespace SnapshotStore.Report

/-- The file of a snapshot. -/
structure SnapshotInfo where
  entity : String
  file : String
  /-- The size of the file, if it is there. -/
  size : Option Nat
  deriving DecidableEq, Repr

/-- The summary of a backup. -/
structure Info where
  path : String
  record : BackupRecord
  snapshots : List SnapshotInfo
  deriving DecidableEq, Repr

namespace Info

/-- The size that is given for a directory. -/
def directorySize : Nat := 4096

/-- The size of what stands at a path. -/
def sizeOf? (d : Disk) (path : Path) : Option Nat :=
  match d.find path with
  | .ok (_, .file content) => some content.length
  | .ok (_, .directory) => some directorySize
  | .error _ => none

/-- The summary of the backup in a directory. -/
def collect (d : Disk) (path : String) : Except Fault Info := do
  let record ← currentBackup d path
  let snapshots := record.stores.map fun entity =>
    ⟨entity, FileName.snapshotPath (record.directory path) entity,
      sizeOf? d (Place.snapshot (Path.ofDirectory path) record.id entity)⟩
  pure ⟨path, record, snapshots⟩

/-- A text filled up with blanks behind it. -/
def padRight (width : Nat) (text : String) : String :=
  text ++ String.ofList (List.replicate (width - text.length) ' ')

/-- A text filled up with blanks before it. -/
def padLeft (width : Nat) (text : String) : String :=
  String.ofList (List.replicate (width - text.length) ' ') ++ text

/-- What the line of a snapshot says of its size. -/
def sizeText : Option Nat → String
  | some size => padLeft 10 (toString size) ++ " bytes"
  | none => padLeft 10 "MISSING"

/-- The line of a snapshot. -/
def snapshotLine (s : SnapshotInfo) : String :=
  s!"    {padRight 32 s.entity} {sizeText s.size}"

/-- A summary as lines of text. -/
def text (info : Info) : String :=
  lines ([s!"Backup: {info.path}",
    s!"  Id:        {info.record.id.render}",
    s!"  Format:    {info.record.format.name}",
    s!"  Completed: {info.record.completed.renderOffset}",
    s!"  Stores:    {info.snapshots.length}"] ++ info.snapshots.map snapshotLine)

def toJson (info : Info) : Json :=
  .object [("path", .string info.path),
    ("id", .string info.record.id.render),
    ("serialization_format", .string info.record.format.name),
    ("timestamp_utc", .string info.record.completed.renderOffset),
    ("stores", .array (info.snapshots.map fun s =>
      .object [("name", .string s.entity), ("file", .string s.file),
        ("size_bytes", optionalNumber s.size)]))]

/-- Reports on the backup in a directory. -/
def run (d : Disk) (path format : String) : Outcome :=
  match collect d path with
  | .error fault => .failed "" fault
  | .ok info =>
    .done (if format = jsonFormat then info.toJson.renderIndented ++ "\n" else info.text)

end Info

end SnapshotStore.Report
