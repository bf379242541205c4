import SnapshotStore.Report.Basic

/-!
The entries of one entity of a backup, keys in hexadecimal digits and values as text.
-/

namespace SnapshotStore.Report.Dump

/-- The first entries of an entity of a backup, at most `limit` of them. -/
def collect (d : Disk) (path entity : String) (limit : Option Nat) :
    Except Fault (List (String × String)) := do
  let record ← currentBackup d path
  if record.stores.contains entity then
    let entries ← (snapshotEntries d path record entity).mapError Fault.store
    let taken := match limit with
      | none => entries
      | some count => entries.take count
    pure (taken.map fun (key, value) => (Hex.encode key, Utf8.decodeLossy value))
  else
    throw (.stated s!"Entity {Quoted.quote entity} is not in backup {record.id.render}")

/-- Entries as lines of text, and their number. -/
def text (entries : List (String × String)) : String :=
  lines (entries.map (fun (key, value) => s!"{key}  {value}") ++ [s!"({entries.length} entries)"])

def toJson (entries : List (String × String)) : Json :=
  .array (entries.map fun (key, value) => .object [("key", .string key), ("value", .string value)])

/-- Lists the entries of an entity of a backup. -/
def run (d : Disk) (path entity : String) (limit : Option Nat) (format : String) : Outcome :=
  match collect d path entity limit with
  | .error fault => .failed "" fault
  | .ok entries =>
    .done (if format = jsonFormat then (toJson entries).renderIndented ++ "\n" else text entries)

end SnapshotStore.Report.Dump
