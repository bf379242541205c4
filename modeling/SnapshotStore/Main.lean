import SnapshotStore.CommandLine

/-!
The report tool. It reads the backup directory into memory, lets the command line work on that, and
writes what comes of it.
-/

namespace SnapshotStore.Main

/-- What stands in a directory, put below a location; what cannot be read is left out. Directories
are followed as deep as there are levels. -/
def load (levels : Nat) (directory : String) (place : Location) (d : Disk) : IO Disk := do
  match levels with
  | 0 => pure d
  | levels + 1 =>
    let mut d := d
    for entry in ← (← IO.FS.realPath directory).readDir do
      let below := place ++ [entry.fileName]
      let isDirectory ← entry.path.isDir
      if isDirectory then
        d ← load levels entry.path.toString below (d.set below .directory)
      else
        try
          let content ← IO.FS.readBinFile entry.path
          d := d.set below (.file content.toList)
        catch _ => pure ()
    pure d

/-- The disk as far as a report on a backup directory looks at it. -/
def loadBackup (directory : String) : IO Disk := do
  let path := Path.ofText directory
  let (_, d) := Disk.empty.call (.makeDirectories (path.filter fun step => !Path.staysHere step))
  match d.find path with
  | .error _ => pure d
  | .ok (place, _) =>
    try load 2 directory place d
    catch _ => pure .empty

/-- Runs the report tool. -/
def run (args : List String) : IO UInt32 := do
  let path := match CommandLine.read args with
    | .ok request => request.path
    | .error _ => none
  let d ← match path with
    | some directory => loadBackup directory
    | none => pure .empty
  let outcome := CommandLine.run args d
  IO.print outcome.output
  IO.eprint outcome.message
  pure outcome.code.toUInt32

end SnapshotStore.Main

/-- The entry of the program. -/
def main (args : List String) : IO UInt32 := SnapshotStore.Main.run args
