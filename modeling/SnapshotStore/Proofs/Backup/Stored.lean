import SnapshotStore.Backup.Place
import SnapshotStore.Proofs.Disk
import SnapshotStore.Proofs.Id
import SnapshotStore.Proofs.Snapshot.FileName
import SnapshotStore.Store.Partition

/-!
What a backup directory holds: the record that its manifest names and the entries in the files of
that record (`Holds`). Only the manifest and the directory of the record matter to it
(`Holds.congr`), and a directory that has lost anything else still recovers it (`Recovers`).
-/

namespace SnapshotStore

namespace Disk

open OrderedMap

variable {d d' : Disk} {dir : Path} {root : Location}

/-! ## Names -/

theorem isName_of_length {name : String} (h : 3 ≤ name.toList.length) : IsName name := by
  refine ⟨?_, ?_⟩
  · rw [Path.staysHere, Bool.or_eq_false_iff, decide_eq_false_iff_not, decide_eq_false_iff_not]
    constructor
    · rintro rfl
      exact absurd h (by decide)
    · rintro rfl
      exact absurd h (by decide)
  · rintro rfl
    exact absurd h (by decide)

theorem isName_manifest : IsName Manifest.fileName := isName_of_length (by decide)

theorem isName_temporary : IsName Manifest.temporaryName := isName_of_length (by decide)

theorem isName_render (id : Id) : IsName id.render :=
  isName_of_length (by rw [Id.length_render]; decide)

theorem isName_snapshot (entity : String) : IsName (FileName.snapshot entity) :=
  isName_of_length (by rw [FileName.toList_snapshot, List.length_append]; simp)

theorem isName_of_parse? {name : String} {id : Id} (h : Id.parse? name = some id) : IsName name :=
  isName_of_length (Nat.le_trans (by decide) (Id.length_of_parse? h))

/-- A file of the directory is not named like an identifier. -/
theorem ne_of_parse? {name : String} {id : Id} (h : Id.parse? name = some id) :
    name ≠ Manifest.fileName ∧ name ≠ Manifest.temporaryName := by
  have long := Id.length_of_parse? h
  constructor
  · rintro rfl
    exact absurd long (by decide)
  · rintro rfl
    exact absurd long (by decide)

theorem temporary_ne_manifest : Manifest.temporaryName ≠ Manifest.fileName := by decide

/-! ## Files -/

/-- The content of the file at a path. -/
def fileAt (d : Disk) (path : Path) : Except DiskFault Bytes := (d.call (.read path)).1

theorem call_read (d : Disk) (path : Path) : d.call (.read path) = (d.fileAt path, d) :=
  Prod.ext rfl (d.disk_of_read path)

theorem fileAt_of_find {path : Path} {place : Location} {content : Bytes}
    (h : d.find path = .ok (place, .file content)) : d.fileAt path = .ok content := by
  rw [fileAt, call, h]

theorem find_of_fileAt {path : Path} {content : Bytes} (h : d.fileAt path = .ok content) :
    ∃ place, d.find path = .ok (place, .file content) := by
  rw [fileAt, call] at h
  cases found : d.find path with
  | error fault =>
    rw [found] at h
    cases h
  | ok r =>
    rw [found] at h
    obtain ⟨place, node⟩ := r
    cases node with
    | directory => cases h
    | file content' =>
      cases h
      exact ⟨place, rfl⟩

theorem fileAt_of_within {path : Path} {content : Bytes} (within : Within d d')
    (h : d.fileAt path = .ok content) : d'.fileAt path = .ok content := by
  obtain ⟨place, found⟩ := find_of_fileAt h
  obtain ⟨sound, named, walked⟩ := walk_of_find found
  apply fileAt_of_find
  rw [find_eq_walk sound named]
  exact walk_of_within within walked

/-- A file that is removed is not found any more. -/
theorem fileAt_removeFile (d : Disk) (path : Path) (content : Bytes) :
    (d.call (.removeFile path)).2.fileAt path ≠ .ok content := by
  intro there
  obtain ⟨place, found⟩ := find_of_fileAt (fileAt_of_within (d.within_removeFile path) there)
  obtain ⟨place', found'⟩ := find_of_fileAt there
  have removed : (d.call (.removeFile path)).2 = d.erase place := by rw [call, found]
  rw [removed] at found'
  obtain ⟨-, -, walked⟩ := walk_of_find found
  obtain ⟨-, -, walked'⟩ := walk_of_find found'
  have stands := stands_of_walk_file walked'
  have within : Within (d.erase place) d := removed ▸ d.within_removeFile path
  cases walked.symm.trans (walk_of_within within walked')
  rw [node?_erase, if_pos rfl] at stands
  cases stands

/-- A file is known by what stands on the way to it. -/
theorem fileAt_congr (leads : d.LeadsTo dir root) (leads' : d'.LeadsTo dir root)
    {names : List String} (isName : ∀ name ∈ names, IsName name)
    (same : ∀ q, q ≠ [] → q <+: names → d.node? (root ++ q) = d'.node? (root ++ q)) :
    d.fileAt (dir ++ names) = d'.fileAt (dir ++ names) := by
  have walks : d.walk [] .directory (dir ++ names) = d'.walk [] .directory (dir ++ names) := by
    rw [walk_append, walk_append, leads, leads']
    exact walk_congr isName same
  have found : d.find (dir ++ names) = d'.find (dir ++ names) := by rw [find, find, walks]
  rw [fileAt, fileAt, call, call, found]
  split <;> rfl

theorem fileAt_of_changesOnly (leads : d.LeadsTo dir root) (leads' : d'.LeadsTo dir root)
    {names changed : List String} (isName : ∀ name ∈ names, IsName name)
    (changes : ChangesOnly d d' (root ++ changed)) (apart : ¬changed <+: names) :
    d'.fileAt (dir ++ names) = d.fileAt (dir ++ names) := by
  refine fileAt_congr leads' leads isName fun q _ below => changes _ fun inside => ?_
  exact apart (((List.prefix_append_right_inj root).1 inside).trans below)

theorem snapshot_eq (dir : Path) (id : Id) (entity : String) :
    Place.snapshot dir id entity = dir ++ ([id.render] ++ [FileName.snapshot entity]) := by
  rw [Place.snapshot, Place.backup, List.append_assoc]

theorem isName_of_mem_snapshot {id : Id} {entity name : String}
    (h : name ∈ [id.render] ++ [FileName.snapshot entity]) : IsName name := by
  rw [List.singleton_append, List.mem_cons, List.mem_singleton] at h
  rcases h with rfl | rfl
  · exact isName_render id
  · exact isName_snapshot entity

end Disk

/-! ## Backups -/

/-- Whether a directory holds a backup in a format: the record that its manifest names, and entries
by the names of the record, which are those that its files spell. -/
inductive Holds (d : Disk) (dir : Path) (format : Format) :
    Option BackupRecord → List (String × List Entry) → Prop where
  | absent (read : Manifest.ofFile (d.fileAt (Place.manifest dir)) = .ok none) :
    Holds d dir format none []
  | blank {manifest : Manifest}
    (read : Manifest.ofFile (d.fileAt (Place.manifest dir)) = .ok (some manifest))
    (latest : manifest.latest? = none) : Holds d dir format none []
  | backup {manifest : Manifest} {record : BackupRecord} {files : List (String × List Entry)}
    (read : Manifest.ofFile (d.fileAt (Place.manifest dir)) = .ok (some manifest))
    (latest : manifest.latest? = some record) (same : record.format = format)
    (names : files.map Prod.fst = record.stores)
    (spelled : ∀ file ∈ files,
      format.ofFile (d.fileAt (Place.snapshot dir record.id file.1)) = .ok file.2) :
    Holds d dir format (some record) files

open Disk

variable {d d' : Disk} {dir : Path} {root : Location} {format : Format}
  {latest : Option BackupRecord} {files : List (String × List Entry)}

theorem Holds.manifest (holds : Holds d dir format latest files) :
    ∃ found, Manifest.ofFile (d.fileAt (Place.manifest dir)) = .ok found := by
  cases holds with
  | absent read => exact ⟨_, read⟩
  | blank read _ => exact ⟨_, read⟩
  | backup read _ _ _ _ => exact ⟨_, read⟩

/-- A manifest that is read, or is missing, has a path without a fault. -/
theorem Holds.sound (holds : Holds d dir format latest files) :
    Path.fault? (Place.manifest dir) = none := by
  obtain ⟨found, read⟩ := holds.manifest
  rw [fileAt, call] at read
  cases hf : d.find (Place.manifest dir) with
  | ok r => exact (walk_of_find hf).1
  | error fault =>
    rw [hf] at read
    cases fault with
    | missing => exact fault?_of_missing hf
    | device | alreadyExists | notDirectory | isDirectory | nameTooLong | invalidArgument
    | nulInPath => cases read

/-- The manifest decides which files are the backup. -/
theorem Holds.of_manifest {manifest : Manifest} {record : BackupRecord}
    (holds : Holds d dir format latest files)
    (read : Manifest.ofFile (d.fileAt (Place.manifest dir)) = .ok (some manifest))
    (last : manifest.latest? = some record) :
    record.format = format ∧ files.map Prod.fst = record.stores ∧ ∀ file ∈ files,
      format.ofFile (d.fileAt (Place.snapshot dir record.id file.1)) = .ok file.2 := by
  cases holds with
  | absent read' =>
    rw [read] at read'
    cases read'
  | blank read' last' =>
    rw [read] at read'
    cases read'
    rw [last] at last'
    cases last'
  | backup read' last' same names spelled =>
    rw [read] at read'
    cases read'
    rw [last] at last'
    cases last'
    exact ⟨same, names, spelled⟩

/-- Entries that are spelled by name are known by their names. -/
theorem eq_of_spelled (spells : String → Except StoreError (List Entry))
    {files files' : List (String × List Entry)} (names : files.map Prod.fst = files'.map Prod.fst)
    (spelled : ∀ file ∈ files, spells file.1 = .ok file.2)
    (spelled' : ∀ file ∈ files', spells file.1 = .ok file.2) : files = files' := by
  induction files generalizing files' with
  | nil => exact (List.map_eq_nil_iff.1 names.symm).symm
  | cons file files ih =>
    cases files' with
    | nil => cases names
    | cons file' files' =>
      obtain ⟨name, names⟩ := List.cons.inj names
      obtain ⟨here, spelled⟩ := List.forall_mem_cons.1 spelled
      obtain ⟨here', spelled'⟩ := List.forall_mem_cons.1 spelled'
      rw [name, here'] at here
      have same : file = file' := Prod.ext name (Except.ok.inj here).symm
      rw [same, ih names spelled spelled']

/-- A directory holds one backup at most. -/
theorem Holds.unique {latest' : Option BackupRecord} {files' : List (String × List Entry)}
    (holds : Holds d dir format latest files) (holds' : Holds d dir format latest' files') :
    latest = latest' ∧ files = files' := by
  cases holds with
  | absent read =>
    cases holds' with
    | absent read' => exact ⟨rfl, rfl⟩
    | blank read' last' => exact ⟨rfl, rfl⟩
    | backup read' _ _ _ _ =>
      rw [read] at read'
      cases read'
  | blank read last =>
    cases holds' with
    | absent read' => exact ⟨rfl, rfl⟩
    | blank read' last' => exact ⟨rfl, rfl⟩
    | backup read' last' _ _ _ =>
      rw [read] at read'
      cases read'
      rw [last] at last'
      cases last'
  | backup read last same names spelled =>
    obtain ⟨same', names', spelled'⟩ := holds'.of_manifest read last
    refine ⟨?_, eq_of_spelled (fun entity => format.ofFile (d.fileAt (Place.snapshot dir _ entity)))
      (names.trans names'.symm) spelled spelled'⟩
    cases holds' with
    | absent read' =>
      rw [read] at read'
      cases read'
    | blank read' last' =>
      rw [read] at read'
      cases read'
      rw [last] at last'
      cases last'
    | backup read' last' _ _ _ =>
      rw [read] at read'
      cases read'
      rw [last] at last'
      exact last'

/-- Two disks with the same manifest in a directory, and the same inside the directory of a
record. -/
structure SameBackup (root : Location) (latest : Option BackupRecord) (d d' : Disk) : Prop where
  directory : d'.node? root = d.node? root
  manifest : d'.node? (root ++ [Manifest.fileName]) = d.node? (root ++ [Manifest.fileName])
  inside : ∀ record, latest = some record →
    ∀ q, d'.node? (root ++ record.id.render :: q) = d.node? (root ++ record.id.render :: q)

theorem SameBackup.refl (d : Disk) : SameBackup root latest d d :=
  ⟨rfl, rfl, fun _ _ _ => rfl⟩

theorem SameBackup.symm (h : SameBackup root latest d d') : SameBackup root latest d' d :=
  ⟨h.directory.symm, h.manifest.symm, fun record eq q => (h.inside record eq q).symm⟩

theorem SameBackup.trans {d'' : Disk} (h : SameBackup root latest d d')
    (h' : SameBackup root latest d' d'') : SameBackup root latest d d'' :=
  ⟨h'.directory.trans h.directory, h'.manifest.trans h.manifest,
    fun record eq q => (h'.inside record eq q).trans (h.inside record eq q)⟩

/-- Other names of a directory do not matter to its backup. -/
theorem sameBackup_of_changesOnly {name : String} {rest : List String}
    (changes : ChangesOnly d d' (root ++ name :: rest)) (file : name ≠ Manifest.fileName)
    (other : ∀ record, latest = some record → name ≠ record.id.render) :
    SameBackup root latest d d' := by
  refine ⟨changes _ ?_, changes _ ?_, fun record eq q => changes _ ?_⟩
  · intro below
    have short := below.length_le
    rw [List.length_append, List.length_cons] at short
    omega
  · intro below
    exact file (List.cons_prefix_cons.1 ((List.prefix_append_right_inj root).1 below)).1
  · intro below
    exact other record eq (List.cons_prefix_cons.1 ((List.prefix_append_right_inj root).1 below)).1

/-- A backup is known by its manifest and by what stands in its directory. -/
theorem Holds.congr (holds : Holds d dir format latest files) (leads : d.LeadsTo dir root)
    (leads' : d'.LeadsTo dir root) (same : SameBackup root latest d d') :
    Holds d' dir format latest files := by
  have sameManifest : d.fileAt (Place.manifest dir) = d'.fileAt (Place.manifest dir) := by
    apply fileAt_congr leads leads' (by simpa using isName_manifest)
    intro q nonempty below
    obtain rfl : q = [Manifest.fileName] := by
      rcases List.prefix_cons_iff.1 below with rfl | ⟨t, rfl, h⟩
      · exact absurd rfl nonempty
      · rw [List.prefix_nil.1 h]
    exact same.manifest.symm
  cases holds with
  | absent read => exact .absent (sameManifest ▸ read)
  | blank read latest => exact .blank (sameManifest ▸ read) latest
  | @backup _ record _ read latest format names spelled =>
    refine .backup (sameManifest ▸ read) latest format names fun file mem => ?_
    rw [← spelled file mem, snapshot_eq]
    refine congrArg _ (fileAt_congr leads' leads (fun _ => isName_of_mem_snapshot) ?_)
    intro q nonempty below
    rcases List.prefix_cons_iff.1 below with rfl | ⟨t, rfl, h⟩
    · exact absurd rfl nonempty
    · exact same.inside record rfl t

/-- There is no backup in an empty directory. -/
theorem holds_of_vacant (leads : d.LeadsTo dir root)
    (vacant : ∀ q, root <+: q → q ≠ root → d.node? q = none)
    (sound : Path.fault? (Place.manifest dir) = none) : Holds d dir format none [] := by
  have free : d.node? (root ++ [Manifest.fileName]) = none :=
    vacant _ (List.prefix_append _ _) (by simp)
  have missing : d.find (Place.manifest dir) = .error .missing := by
    rw [Place.manifest, find_below leads sound (List.cons_ne_nil _ _), walk_directory,
      enter_name isName_manifest, free]
    rfl
  refine .absent ?_
  rw [fileAt, call, missing]
  rfl

/-- Whether a directory holds a backup once the directories on the way to it are made again: it is a
part of a disk on which they stand, and has lost nothing that matters to the backup. -/
def Recovers (d : Disk) (dir : Path) (root : Location) (format : Format)
    (latest : Option BackupRecord) (files : List (String × List Entry)) : Prop :=
  ∃ whole : Disk, whole.LeadsTo dir root ∧ Holds whole dir format latest files ∧ Within d whole ∧
    SameBackup root latest whole d

theorem Holds.recovers (holds : Holds d dir format latest files) (leads : d.LeadsTo dir root) :
    Recovers d dir root format latest files :=
  ⟨d, leads, holds, .refl d, .refl d⟩

theorem Recovers.lose (h : Recovers d dir root format latest files) (within : Within d' d)
    (same : SameBackup root latest d d') : Recovers d' dir root format latest files := by
  obtain ⟨whole, leads, holds, upper, kept⟩ := h
  exact ⟨whole, leads, holds, within.trans upper, kept.trans same⟩

theorem Recovers.holds (h : Recovers d dir root format latest files)
    (leads : d.LeadsTo dir root) : Holds d dir format latest files := by
  obtain ⟨whole, leads', holds, _, kept⟩ := h
  exact holds.congr leads' leads kept

theorem Recovers.leadsOnlyTo (h : Recovers d dir root format latest files) :
    d.LeadsOnlyTo dir root := by
  obtain ⟨whole, leads, _, upper, _⟩ := h
  exact leads.only.of_within upper

/-- What lies between two disks agrees with them where they agree. -/
theorem node?_between {whole : Disk} (lower : Within d d') (upper : Within d' whole)
    {place : Location} (same : d.node? place = whole.node? place) :
    d'.node? place = whole.node? place := by
  cases hw : whole.node? place with
  | some node => exact lower _ _ (same.trans hw)
  | none =>
    cases hd : d'.node? place with
    | none => rfl
    | some node => exact absurd (upper _ _ hd) (by rw [hw]; exact nofun)

/-- The directory is made ready, and holds the backup. -/
theorem Recovers.made (h : Recovers d dir root format latest files) :
    ∃ d', d.call (.makeDirectories dir) = (.ok (), d') ∧ d'.LeadsTo dir root ∧
      Holds d' dir format latest files := by
  obtain ⟨whole, leads, holds, within, kept⟩ := h
  have stands : root = [] ∨ d.node? root = some .directory := by
    rw [kept.directory]
    exact leads.stands
  obtain ⟨d', made, upper, leads'⟩ :=
    makeDirectories_of_within leads within stands (fault?_append_left holds.sound)
  have lower := within_makeDirectories d dir
  rw [made] at lower
  refine ⟨d', made, leads', holds.congr leads leads' ⟨?_, ?_, fun record eq q => ?_⟩⟩
  · exact node?_between lower upper kept.directory
  · exact node?_between lower upper kept.manifest
  · exact node?_between lower upper (kept.inside record eq q)

end SnapshotStore
