import SnapshotStore.Codec.Value
import SnapshotStore.Id
import SnapshotStore.Snapshot.FileName
import SnapshotStore.Snapshot.Format
import SnapshotStore.Time.Stamp

/-!
The backup manifest: which backups there are, newest last, and for each its identifier, the format
of its files, when it was complete and the entities that it holds. It is kept as indented JSON.
-/

namespace SnapshotStore

/-- The description of one complete backup. -/
structure BackupRecord where
  id : Id
  format : Format
  completed : Stamp
  /-- The names of the entities that the backup holds. -/
  stores : List String
  deriving DecidableEq, Repr, Inhabited

/-- The backups that are kept, newest last. -/
structure Manifest where
  backups : List BackupRecord
  deriving DecidableEq, Repr, Inhabited

namespace BackupRecord

/-- The directory of a backup below the backup path. -/
def directory (path : String) (record : BackupRecord) : String :=
  FileName.join path record.id.render

def toJson (record : BackupRecord) : Json :=
  .object [("Id", .string record.id.render),
    ("SerializationFormat", .string record.format.name),
    ("TimestampUtc", .string record.completed.render),
    ("Stores", .array (record.stores.map .string))]

/-- The names of the entities in an array. -/
def readStores? : Spelling → Option (List String)
  | .array items => items.mapM Spelling.text?
  | _ => none

/-- The record that a spelling means. -/
def read? (s : Spelling) : Option BackupRecord := do
  match ← s.fields? ["Id", "SerializationFormat", "TimestampUtc", "Stores"] with
  | [id, format, completed, stores] =>
    let id ← id.text?.bind Id.parse?
    let format ← format.alternative?.bind Format.ofName?
    let completed ← completed.text?.bind Stamp.parse?
    let stores ← readStores? stores
    pure ⟨id, format, completed, stores⟩
  | _ => none

end BackupRecord

namespace Manifest

/-- The name of the manifest's file. -/
def fileName : String := "meta.json"

/-- The name under which a new manifest is written before it takes its place. -/
def temporaryName : String := "meta.json.tmp"

/-- The manifest of one backup. -/
def single (record : BackupRecord) : Manifest := ⟨[record]⟩

/-- The backup that a restore loads. -/
def latest? (manifest : Manifest) : Option BackupRecord := manifest.backups.getLast?

/-- Whether a backup of this identifier is listed; the text must be the one that is written. -/
def references (manifest : Manifest) (id : String) : Bool :=
  manifest.backups.any fun record => record.id.render = id

def toJson (manifest : Manifest) : Json :=
  .object [("Backups", .array (manifest.backups.map BackupRecord.toJson))]

/-- The records in an array. -/
def readBackups? : Spelling → Option (List BackupRecord)
  | .array items => items.mapM BackupRecord.read?
  | _ => none

/-- The manifest that a spelling means. -/
def read? (s : Spelling) : Option Manifest := do
  match ← s.fields? ["Backups"] with
  | [backups] => (readBackups? backups).map Manifest.mk
  | _ => none

def write (manifest : Manifest) : Bytes := Utf8.encode manifest.toJson.renderIndented

def read (bytes : Bytes) : Except StoreError Manifest :=
  match (Spelling.read? bytes).bind read? with
  | some manifest => .ok manifest
  | none => .error (.malformedMetadata .unreadable)

/-- The manifest in the file that was read, if there was one. -/
def ofFile : Except DiskFault Bytes → Except StoreError (Option Manifest)
  | .ok content => some <$> read content
  | .error .missing => .ok none
  | .error fault => .error (.io fault)

end Manifest

end SnapshotStore
