import SnapshotStore.Backup.Place

/-!
Reports on a backup directory: what a report gives, why it can fail, and the backup that it is
about, which is the last one that the manifest names.
-/

namespace SnapshotStore.Report

/-- Why a report cannot be made. -/
inductive Fault where
  | stated (reason : String)
  | store (error : StoreError)
  | disk (fault : DiskFault)
  deriving DecidableEq, Repr

def Fault.inspect : Fault → String
  | stated reason => Quoted.quote reason
  | store error => error.inspect
  | disk fault => fault.inspect

/-- What a run gives: an exit code, text, and a message if it fails. -/
structure Outcome where
  code : Nat
  output : String
  message : String
  deriving DecidableEq, Repr

/-- The outcome of a run that fails after giving a text. -/
def Outcome.failed (output : String) (fault : Fault) : Outcome :=
  ⟨1, output, "Error: " ++ fault.inspect ++ "\n"⟩

/-- The outcome of a run that gives a text. -/
def Outcome.done (output : String) : Outcome := ⟨0, output, ""⟩

/-- Lines as a text. -/
def lines (ls : List String) : String := String.join (ls.map (· ++ "\n"))

/-- The answer of a disk to the reading of a file. -/
def readFile (d : Disk) (path : Path) : Except DiskFault Bytes := (d.call (.read path)).1

/-- The last backup that the manifest in a directory names. -/
def currentBackup (d : Disk) (path : String) : Except Fault BackupRecord :=
  match Manifest.ofFile (readFile d (Place.manifest (Path.ofDirectory path))) with
  | .error e => .error (.store e)
  | .ok none => .error (.stated s!"No backup manifest found at {path}")
  | .ok (some manifest) =>
    match manifest.latest? with
    | none => .error (.stated s!"Backup manifest at {path} lists no backups")
    | some record => .ok record

/-- The entries of the snapshot of an entity in a backup. -/
def snapshotEntries (d : Disk) (path : String) (record : BackupRecord) (entity : String) :
    Except StoreError (List (Bytes × Bytes)) :=
  record.format.ofFile (readFile d (Place.snapshot (Path.ofDirectory path) record.id entity))

/-- A number or null as JSON. -/
def optionalNumber : Option Nat → Json
  | none => .null
  | some n => .int n

/-- The name of the layout that is JSON; every other name stands for lines of text. -/
def jsonFormat : String := "json"

end SnapshotStore.Report
