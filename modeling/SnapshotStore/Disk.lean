import SnapshotStore.Error
import SnapshotStore.OrderedMap

/-!
The disk: a tree of directories and files, held as a map from locations. A path leads to a location
step by step, so each directory on its way must be there, also one that the path leaves again. Each
call changes the tree at once and as a whole, or fails and leaves it, with two exceptions: the
making of nested directories keeps those that were made before the fault, and the removal of a
directory that is given as `.` or `..` has emptied it when it fails. The empty path names nothing,
though names can be added to it.

A name in a directory is a text, or bytes that spell none, which no path leads to. Such a name
stands in a location as U+0000, which no text for a name has, and behind it each of its bytes as
the character of that number.
-/

namespace SnapshotStore

/-- The names on the way from the root to a place in the tree. -/
abbrev Location := List String

instance : LE Location := List.instLE

instance : Std.IsLinearOrder Location := inferInstance

instance : Std.LawfulOrderLT Location := inferInstance

/-- The steps of a path from the root: a name, `..` for the directory above, and `.` or nothing for
the same directory. -/
abbrev Path := List String

namespace Path

/-- The pieces between the separators of a text. -/
def pieces : List Char → List (List Char)
  | [] => [[]]
  | c :: s =>
    if c = '/' then [] :: pieces s
    else
      match pieces s with
      | [] => [[c]]
      | piece :: rest => (c :: piece) :: rest

/-- The path that a text spells. What is before a separator for the root is a step that leads
nowhere, and the empty text spells no step. -/
def ofText (text : String) : Path :=
  if text = "" then [] else (pieces text.toList).map String.ofList

/-- The path of a directory, to which names can be added: a separator at its end begins no step. -/
def ofDirectory (text : String) : Path :=
  let path := ofText text
  if path.getLast? = some "" then path.dropLast else path

/-- The step to the directory above. -/
def above : String := ".."

/-- Whether a step leads nowhere. -/
def staysHere (step : String) : Bool := step = "" || step = "."

/-- A path without the steps at its end that lead nowhere. -/
def trimEnd (path : Path) : Path := (path.reverse.dropWhile staysHere).reverse

/-- The path of the directory that holds what a path names. -/
def parent (path : Path) : Path := trimEnd (trimEnd path).dropLast

/-- The number of bytes of a path with a separator or the end after each of its steps. -/
def size (path : Path) : Nat :=
  (path.map fun step => 1 + step.utf8ByteSize).foldl (· + ·) 0

/-- The greatest size of a path. -/
def limit : Nat := 4096

/-- Why a path can be given to no call, if so. -/
def fault? (path : Path) : Option DiskFault :=
  if path.any fun step => step.toList.contains '\x00' then some .nulInPath
  else if limit < path.size then some .nameTooLong
  else none

/-- Whether the last step of a path is no name. -/
def endsUnnamed (path : Path) : Bool :=
  match (path.filter (· ≠ "")).getLast? with
  | some step => step = "." || step = above
  | none => true

end Path

/-- What stands at a location. -/
inductive DiskNode where
  | file (content : Bytes)
  | directory
  deriving DecidableEq, Repr, Inhabited

/-- What stands at the locations below the root, which is a directory. -/
structure Disk where
  nodes : OrderedMap Location DiskNode

/-- A call on the disk. -/
inductive DiskCall where
  /-- Makes a directory and those above it, unless they are there. -/
  | makeDirectories (path : Path)
  /-- Writes a file, replacing what it held. -/
  | write (path : Path) (content : Bytes)
  /-- Moves a file to another path, replacing a file there. -/
  | rename (source target : Path)
  | removeFile (path : Path)
  /-- Removes a directory with all that is below it. -/
  | removeTree (path : Path)
  | read (path : Path)
  /-- The names in a directory, as bytes, with what they stand for. -/
  | list (path : Path)
  /-- Makes the entries of a directory last. -/
  | sync (path : Path)
  deriving DecidableEq, Repr

abbrev DiskCall.Answer : DiskCall → Type
  | makeDirectories _ | write _ _ | rename _ _ | removeFile _ | removeTree _ | sync _ => Unit
  | read _ => Bytes
  | list _ => List (Bytes × DiskNode)

namespace Disk

def empty : Disk := ⟨.empty⟩

instance : Inhabited Disk := ⟨empty⟩

/-- The greatest number of bytes of a name. -/
def nameLimit : Nat := 255

/-- Whether a name is longer than the disk allows. -/
def isTooLong (name : String) : Bool := nameLimit < name.utf8ByteSize

/-- Where the steps of a path lead from a location at which `node` stands, and what stands there. -/
def walk (d : Disk) (place : Location) (node : DiskNode) :
    (path : Path) → Except DiskFault (Location × DiskNode)
  | [] => .ok (place, node)
  | step :: rest =>
    match node with
    | .file _ => .error .notDirectory
    | .directory =>
      if Path.staysHere step then d.walk place .directory rest
      else if step = Path.above then d.walk place.dropLast .directory rest
      else if isTooLong step then .error .nameTooLong
      else
        match d.nodes.get? (place ++ [step]) with
        | none => .error .missing
        | some node => d.walk (place ++ [step]) node rest

/-- Where a path leads, and what stands there. -/
def find (d : Disk) (path : Path) : Except DiskFault (Location × DiskNode) :=
  match path.fault? with
  | some fault => .error fault
  | none => if path = [] then .error .missing else d.walk [] .directory path

def contains (d : Disk) (path : Path) : Bool :=
  match d.find path with
  | .ok _ => true
  | .error _ => false

/-- The location where a file is to be put: that of the file that it replaces, or a name that is not
there yet in a directory that is. -/
def findPlace (d : Disk) (path : Path) : Except DiskFault Location :=
  match d.find path with
  | .ok (place, .file _) => .ok place
  | .ok (_, .directory) => .error .isDirectory
  | .error .missing =>
    match d.walk [] .directory path.dropLast, path.getLast? with
    | .ok (place, .directory), some name => .ok (place ++ [name])
    | _, _ => .error .missing
  | .error fault => .error fault

def set (d : Disk) (place : Location) (node : DiskNode) : Disk := ⟨d.nodes.insert place node⟩

def erase (d : Disk) (place : Location) : Disk := ⟨d.nodes.erase place⟩

/-- Makes the directories of a path from a location. A name that is not there is not made where only
steps that lead nowhere follow it and one of them is a point, since that point is reached through
it. -/
def makeBelow (d : Disk) (place : Location) : (path : Path) → Except DiskFault Unit × Disk
  | [] => (.ok (), d)
  | step :: rest =>
    if Path.staysHere step then d.makeBelow place rest
    else if step = Path.above then d.makeBelow place.dropLast rest
    else if isTooLong step then (.error .nameTooLong, d)
    else
      match d.nodes.get? (place ++ [step]) with
      | some .directory => d.makeBelow (place ++ [step]) rest
      | some (.file _) => (.error (if rest.all (· = "") then .alreadyExists else .notDirectory), d)
      | none =>
        if rest.all Path.staysHere ∧ rest.contains "." then (.error .missing, d)
        else (d.set (place ++ [step]) .directory).makeBelow (place ++ [step]) rest

/-- Removes all that is below a location. -/
def eraseBelow (d : Disk) (place : Location) : Disk :=
  ⟨d.nodes.filter fun p _ => !(place.isPrefixOf p && p ≠ place)⟩

/-- Removes a location and all that is below it. -/
def eraseTree (d : Disk) (place : Location) : Disk :=
  ⟨d.nodes.filter fun p _ => !place.isPrefixOf p⟩

/-- The names in a directory, with what they stand for. -/
def children (d : Disk) (place : Location) : List (String × DiskNode) :=
  d.nodes.toList.filterMap fun (p, node) =>
    if p.dropLast = place then p.getLast?.map (·, node) else none

/-- The bytes of a name in a location. -/
def nameBytes (name : String) : Bytes :=
  if name.toList.head? = some '\x00' then name.toList.tail.map fun c => UInt8.ofNat c.toNat
  else Utf8.encode name

/-- The names in a directory, as bytes, with what they stand for. -/
def listing (d : Disk) (place : Location) : List (Bytes × DiskNode) :=
  (d.children place).map fun (name, node) => (nameBytes name, node)

/-- The answer to a call, and the disk after it. -/
def call (d : Disk) : (c : DiskCall) → Except DiskFault c.Answer × Disk
  | .makeDirectories path =>
    match path.fault? with
    | some fault => (.error fault, d)
    | none => d.makeBelow [] path
  | .write path content =>
    match d.findPlace path with
    | .ok place => (.ok (), d.set place (.file content))
    | .error fault => (.error fault, d)
  | .rename source target =>
    match d.find source with
    | .error fault => (.error fault, d)
    | .ok (_, .directory) => (.error .isDirectory, d)
    | .ok (place, .file content) =>
      match d.findPlace target with
      | .ok target => (.ok (), (d.erase place).set target (.file content))
      | .error fault => (.error fault, d)
  | .removeFile path =>
    match d.find path with
    | .error fault => (.error fault, d)
    | .ok (_, .directory) => (.error .isDirectory, d)
    | .ok (place, .file _) => (.ok (), d.erase place)
  | .removeTree path =>
    match d.find path with
    | .error fault => (.error fault, d)
    | .ok (_, .file _) => (.error .notDirectory, d)
    | .ok (place, .directory) =>
      if path.endsUnnamed then (.error .invalidArgument, d.eraseBelow place)
      else (.ok (), d.eraseTree place)
  | .read path =>
    match d.find path with
    | .error fault => (.error fault, d)
    | .ok (_, .directory) => (.error .isDirectory, d)
    | .ok (_, .file content) => (.ok content, d)
  | .list path =>
    match d.find path with
    | .error fault => (.error fault, d)
    | .ok (_, .file _) => (.error .notDirectory, d)
    | .ok (place, .directory) => (.ok (d.listing place), d)
  | .sync path =>
    match d.find path with
    | .error fault => (.error fault, d)
    | .ok _ => (.ok (), d)

/-- The locations below a directory, in ascending order, with what they stand for. -/
def below (d : Disk) (place : Location) : List (Location × DiskNode) :=
  d.nodes.toList.filterMap fun (p, node) =>
    if place.isPrefixOf p ∧ p ≠ place then some (p.drop place.length, node) else none

end Disk

end SnapshotStore
