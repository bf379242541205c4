import SnapshotStore.Proofs.Backup.EngineCalls
import SnapshotStore.Proofs.Backup.Opening
import SnapshotStore.Proofs.Snapshot.Paths
import SnapshotStore.Report.Verify

/-!
The check of a backup against its restore. Whatever lies in the directory of the last backup, the
check succeeds if and only if a keeper that is created on the directory restores all that the
manifest lists, and where it does not succeed the keeper discards everything; and the entries that
the check counts are those that the keeper puts, one by one, into the partition of the snapshot
(`verifies_what_restores`).
-/

namespace SnapshotStore

open Site OrderedMap Disk

/-- Whether a keeper has restored all entities of a backup, from snapshots that spell their entries,
and has left the disk. -/
def Standpoint.Restored (p : Standpoint) (record : BackupRecord)
    (spells : String → Except StoreError (List Entry)) (d : Disk) : Prop :=
  ∃ files : List (String × List Entry), files.map Prod.fst = record.stores ∧
    (∀ file ∈ files, spells file.1 = .ok file.2) ∧ p.site.engine.contents = pictured files ∧
    p.keeper.trackedNames = (pictured files).keys ∧ p.site.disk = d

/-- Whether a keeper has discarded its backups: there is no partition, no name is tracked, and no
manifest is found. -/
structure Standpoint.Wiped (p : Standpoint) : Prop where
  contents : p.site.engine.contents = .empty
  tracked : p.keeper.trackedNames = []
  manifest : ∀ content, p.site.disk.fileAt (Place.manifest p.keeper.directory) ≠ .ok content

namespace Report

variable {d : Disk} {path : String} {record : BackupRecord}

/-- The backup of a report is the last one of a manifest that is read. -/
theorem manifest_of_currentBackup (current : currentBackup d path = .ok record) :
    ∃ manifest, Manifest.ofFile (d.fileAt (Place.manifest (Path.ofDirectory path))) =
      .ok (some manifest) ∧ manifest.latest? = some record := by
  delta currentBackup at current
  show ∃ manifest, Manifest.ofFile (readFile d (Place.manifest (Path.ofDirectory path))) = _ ∧ _
  split at current
  · cases current
  · cases current
  · rename_i manifest read
    split at current
    · cases current
    · rename_i last latest
      cases current
      exact ⟨manifest, read, latest⟩

/-- A directory in which a manifest is read is there. -/
theorem leadsTo_of_manifest {dir : Path} {manifest : Manifest}
    (read : Manifest.ofFile (d.fileAt (Place.manifest dir)) = .ok (some manifest)) :
    ∃ root, d.LeadsTo dir root ∧ Path.fault? dir = none := by
  cases there : d.fileAt (Place.manifest dir) with
  | error fault =>
    rw [there] at read
    cases fault <;> cases read
  | ok content =>
    obtain ⟨place, found⟩ := find_of_fileAt there
    obtain ⟨sound, -, walked⟩ := walk_of_find found
    rw [Place.manifest, walk_append] at walked
    cases first : d.walk [] .directory dir with
    | error fault =>
      rw [first] at walked
      cases walked
    | ok r =>
      rw [first] at walked
      obtain ⟨root, node⟩ := r
      cases node with
      | file content => cases walked
      | directory => exact ⟨root, first, fault?_append_left sound⟩

/-- A directory in which a manifest is read can be listed, unless it is given by no text. -/
theorem find_of_manifest {manifest : Manifest} (named : path ≠ "")
    (read : Manifest.ofFile (d.fileAt (Place.manifest (Path.ofDirectory path))) =
      .ok (some manifest)) :
    ∃ root, d.find (Path.ofDirectory path) = .ok (root, .directory) := by
  obtain ⟨root, leads, sound⟩ := leadsTo_of_manifest read
  exact ⟨root, (find_eq_walk sound (Path.ofDirectory_ne_nil named)).trans leads⟩

theorem list_of_find {dir : Path} {root : Location} (found : d.find dir = .ok (root, .directory)) :
    (d.call (.list dir)).1 = .ok (d.listing root) := by
  rw [call, found]

/-- What a check finds, from the listings of the two directories. -/
theorem collect_eq {beside inside : List (Bytes × DiskNode)}
    (current : currentBackup d path = .ok record)
    (outer : (d.call (.list (Path.ofDirectory path))).1 = .ok beside)
    (inner : (d.call (.list (Place.backup (Path.ofDirectory path) record.id))).1 = .ok inside) :
    Verification.collect d path = .ok {
      id := record.id
      checks := record.stores.map fun entity =>
        ⟨entity, (snapshotEntries d path record entity).map List.length⟩
      orphans := Verification.orphansAmong record.id beside
      unlisted := Verification.unlistedAmong record.stores inside
      leftover := d.contains (Place.temporary (Path.ofDirectory path)) } := by
  simp only [Verification.collect, Verification.listing, current, outer, inner, bind, Except.bind]
  rfl

/-- A check looks at the snapshots that the manifest lists, in its order. -/
theorem exists_verification {nodes : List (Bytes × DiskNode)} (named : path ≠ "")
    (current : currentBackup d path = .ok record)
    (listed : (d.call (.list (Place.backup (Path.ofDirectory path) record.id))).1 = .ok nodes) :
    ∃ v, Verification.collect d path = .ok v ∧ v.checks = record.stores.map fun entity =>
      ⟨entity, (snapshotEntries d path record entity).map List.length⟩ := by
  obtain ⟨manifest, read, -⟩ := manifest_of_currentBackup current
  obtain ⟨root, found⟩ := find_of_manifest named read
  exact ⟨_, collect_eq current (list_of_find found) listed, rfl⟩

theorem isValid_iff {v : Verification} {names : List String}
    {spells : String → Except StoreError (List Entry)}
    (checks : v.checks = names.map fun entity => ⟨entity, (spells entity).map List.length⟩) :
    v.isValid = true ↔ (readable spells names).map Prod.fst = names := by
  rw [readable_whole_iff, Verification.isValid, checks, List.all_map, List.all_eq_true]
  refine forall_congr' fun name => forall_congr' fun _ => ?_
  show ((spells name).map List.length).toBool = true ↔ _
  cases spells name <;> exact Iff.rfl

/-- The checks up to the first that has failed are those of the files that can be read. -/
theorem takeWhile_checks (names : List String) (spells : String → Except StoreError (List Entry)) :
    (names.map fun entity => (⟨entity, (spells entity).map List.length⟩ : SnapshotCheck)).takeWhile
        (fun check => check.result.toBool) =
      (readable spells names).map fun file => ⟨file.1, .ok file.2.length⟩ := by
  induction names with
  | nil => rfl
  | cons name names ih =>
    cases here : spells name with
    | error e =>
      rw [readable_of_error here, List.map_cons, here, List.takeWhile_cons_of_neg]
      · rfl
      · exact Bool.false_ne_true
    | ok entries =>
      rw [readable_of_ok here, List.map_cons, here, List.takeWhile_cons_of_pos rfl, ih]
      rfl

theorem code_run {v : Verification} (collected : Verification.collect d path = .ok v)
    (layout : String) : (Verification.run d path layout).code = if v.isValid then 0 else 1 := by
  -- Only unfolded: the equation of `run` is slow to derive, because of the texts in it.
  delta Verification.run
  rw [collected]
  dsimp only
  split <;> rfl

/-- A keeper is created with all that the manifest lists, or with nothing. -/
theorem restored_or_wiped (current : currentBackup d path = .ok record) (batchSize : Nat) :
    let spells := snapshotEntries d path record
    let files := readable spells record.stores
    let created := opening path record.format batchSize d
    let calls := engineCalls (Keeper.create.script (Keeper.new path record.format batchSize))
      (.fresh d)
    created.1 = .ok () ∧ created.2.keeper.directory = Path.ofDirectory path ∧ ∃ handle,
      (∀ file ∈ files, ∀ file' ∈ files, handle file.1 = handle file'.1 → file.1 = file'.1) ∧
      (files.map Prod.fst = record.stores ∧ calls = loading handle files ∧
          created.2.Restored record spells d ∨
        files.map Prod.fst ≠ record.stores ∧
          calls = loading handle files ++ (files.map Prod.fst).map .removePartition ∧
          created.2.Wiped) := by
  intro spells files created calls
  obtain ⟨manifest, read, latest⟩ := manifest_of_currentBackup current
  obtain ⟨root, leads, sound⟩ := leadsTo_of_manifest read
  have makes : d.call (.makeDirectories (Path.ofDirectory path)) = (.ok (), d) :=
    makeDirectories_of_leadsTo leads sound
  have busy : Busy d (.fresh d) := ⟨Engine.sound_empty, rfl, rfl, rfl⟩
  obtain ⟨handle, apart, whole, broken⟩ := calling_create
    (k := Keeper.new path record.format batchSize) (calm_fresh d) busy makes read latest rfl rfl
  obtain ⟨k, s, contents, opened, path', format', -, keeps, restores, kept⟩ :=
    of_opening record.format batchSize makes
  have names : k.trackedNames = contents.keys := (congrArg keys keeps.tracked).trans (keys_map _ _)
  have spelled : ∀ file ∈ files, spells file.1 = .ok file.2 := fun _ => spells_of_mem_readable
  have ended : created = (.ok (), ⟨k, s⟩) := opened
  have directory : created.2.keeper.directory = Path.ofDirectory path := by
    rw [ended, Keeper.directory, path']
  refine ⟨by rw [ended], directory, handle, apart, ?_⟩
  by_cases all : files.map Prod.fst = record.stores
  · have holds : Holds d (Path.ofDirectory path) record.format (some record) files :=
      .backup read latest rfl all spelled
    obtain rfl := restores.unique (.held holds)
    refine .inl ⟨all, whole all, ?_⟩
    rw [ended]
    exact ⟨files, all, spelled, keeps.held, names, kept ⟨_, _, holds⟩⟩
  · have none : ∀ latest files, ¬Holds d (Path.ofDirectory path) record.format latest files := by
      intro latest' files' holds
      obtain ⟨-, names', spelled'⟩ := holds.of_manifest read latest
      refine all (readable_whole_iff.2 fun name mem => ?_)
      rw [← names'] at mem
      obtain ⟨file, inFiles, rfl⟩ := List.mem_map.1 mem
      have here : spells file.1 = .ok file.2 := spelled' file inFiles
      show (spells file.1).toBool = true
      rw [here]
      rfl
    obtain rfl := restores.unique (.nothing none)
    obtain ⟨calls', gone⟩ := broken all
    refine .inr ⟨all, calls', ?_, ?_, directory ▸ gone⟩
    · rw [ended]
      exact keeps.held
    · rw [ended]
      exact names

/-- A keeper that was wiped has not restored a backup that is there. -/
theorem not_wiped_of_restored {p : Standpoint} {spells : String → Except StoreError (List Entry)}
    (current : currentBackup d path = .ok record)
    (directory : p.keeper.directory = Path.ofDirectory path) (restored : p.Restored record spells d) :
    ¬p.Wiped := by
  intro wiped
  obtain ⟨manifest, read, -⟩ := manifest_of_currentBackup current
  obtain ⟨-, -, -, -, -, kept⟩ := restored
  have gone := wiped.manifest
  rw [directory, kept] at gone
  cases there : d.fileAt (Place.manifest (Path.ofDirectory path)) with
  | ok content => exact gone content there
  | error fault =>
    rw [there] at read
    cases fault <;> cases read

/-- The check of a backup succeeds if and only if a new keeper restores it, and fails if and only if
the keeper discards everything. The checks are those of the listed entities in their order; an entity
has failed if and only if its snapshot spells no entries; and up to the first that has failed, the
entries that the check counts are those that the keeper puts into the partition of the entity. -/
theorem verifies_what_restores {nodes : List (Bytes × DiskNode)} (named : path ≠ "")
    (current : currentBackup d path = .ok record)
    (listed : (d.call (.list (Place.backup (Path.ofDirectory path) record.id))).1 = .ok nodes)
    (layout : String) (batchSize : Nat) :
    let spells := snapshotEntries d path record
    let files := readable spells record.stores
    let created := opening path record.format batchSize d
    let calls := engineCalls (Keeper.create.script (Keeper.new path record.format batchSize))
      (.fresh d)
    let checked := Verification.run d path layout
    created.1 = .ok () ∧ (checked.code = 0 ∨ checked.code = 1) ∧
      (checked.code = 0 ↔ created.2.Restored record spells d) ∧
      (checked.code = 1 ↔ created.2.Wiped) ∧
      ∃ v handle, Verification.collect d path = .ok v ∧
        v.checks = (record.stores.map fun entity => ⟨entity, (spells entity).map List.length⟩) ∧
        v.checks.takeWhile (fun check => check.result.toBool) =
          (files.map fun file => ⟨file.1, .ok file.2.length⟩) ∧
        (∀ file ∈ files, ∀ file' ∈ files, handle file.1 = handle file'.1 → file.1 = file'.1) ∧
        calls = loading handle files ++
          if checked.code = 0 then [] else (files.map Prod.fst).map .removePartition := by
  intro spells files created calls checked
  obtain ⟨v, collected, checks⟩ := exists_verification named current listed
  obtain ⟨succeeded, directory, handle, apart, ended⟩ := restored_or_wiped current batchSize
  have code : checked.code = if v.isValid then 0 else 1 := code_run collected layout
  have valid := isValid_iff checks
  have counted : v.checks.takeWhile (fun check => check.result.toBool) =
      (files.map fun file => ⟨file.1, .ok file.2.length⟩) := by
    rw [checks]
    exact takeWhile_checks record.stores spells
  rcases ended with ⟨all, called, restored⟩ | ⟨part, called, wiped⟩
  · rw [if_pos (valid.2 all)] at code
    have kept := not_wiped_of_restored current directory restored
    refine ⟨succeeded, .inl code, ⟨fun _ => restored, fun _ => code⟩,
      ⟨fun failed => ?_, fun wiped => ?_⟩,
      v, handle, collected, checks, counted, apart, ?_⟩
    · rw [code] at failed
      cases failed
    · exact absurd wiped kept
    · rw [if_pos code, List.append_nil]
      exact called
  · rw [if_neg fun all => part (valid.1 all)] at code
    have failed : checked.code ≠ 0 := by
      rw [code]
      exact Nat.one_ne_zero
    refine ⟨succeeded, .inr code, ⟨fun fine => absurd fine failed, fun restored => ?_⟩,
      ⟨fun _ => wiped, fun _ => code⟩, v, handle, collected, checks, counted, apart, ?_⟩
    · exact absurd wiped (not_wiped_of_restored current directory restored)
    · rw [if_neg failed]
      exact called

/-- The manifest lists `a`, `c` and `a` again; the snapshot of `a` has two entries under one key, and
that of `c` is missing, beside a file that is no snapshot. -/
theorem verifies_what_restores_missing :
    let manifest := Utf8.encode ("\x7b\"Backups\":[\x7b\"Id\":\"00000000000000000000000000000005\"," ++
      "\"SerializationFormat\":\"Cbor\",\"TimestampUtc\":\"1970-01-01T00:00:00Z\"," ++
      "\"Stores\":[\"a\",\"c\",\"a\"]\x7d]\x7d")
    let backup := ["b", "00000000-0000-0000-0000-000000000005"]
    let disk := Disk.empty.set ["b"] .directory |>.set ["b", "meta.json"] (.file manifest)
      |>.set backup .directory
      |>.set (backup ++ ["a.bin"]) (.file (Format.cbor.write [([1], [2]), ([1], [3])]))
      |>.set (backup ++ ["notes"]) (.file [7])
    (Verification.run disk "b" "text").code = 1 ∧ (opening "b" .cbor 1 disk).2.Wiped ∧
      (∃ v, Verification.collect disk "b" = .ok v ∧
        v.checks.map (fun check => (check.entity, check.result.toOption)) =
          [("a", some 2), ("c", none), ("a", some 2)]) ∧
      ∃ handle, engineCalls (Keeper.create.script (Keeper.new "b" .cbor 1)) (.fresh disk) =
        [.openPartition "a", .call handle (.put [1] [2]), .call handle (.put [1] [3]),
          .removePartition "a"] := by
  intro manifest backup disk
  let record : BackupRecord := ⟨⟨5⟩, .cbor, ⟨0, 0⟩, ["a", "c", "a"]⟩
  have current : currentBackup disk "b" = .ok record := by decide +kernel
  have listed : (disk.call (.list (Place.backup (Path.ofDirectory "b") record.id))).1 =
      .ok [(Utf8.encode "a.bin", .file (Format.cbor.write [([1], [2]), ([1], [3])])),
        (Utf8.encode "notes", .file [7])] := by
    decide +kernel
  have files : readable (snapshotEntries disk "b" record) record.stores =
      [("a", [([1], [2]), ([1], [3])])] := by
    decide +kernel
  have results : (record.stores.map fun entity =>
      (entity, ((snapshotEntries disk "b" record entity).map List.length).toOption)) =
      [("a", some 2), ("c", none), ("a", some 2)] := by
    decide +kernel
  have code : (Verification.run disk "b" "text").code = 1 := by decide +kernel
  clear_value disk
  obtain ⟨-, -, -, wiped, v, handle, collected, checks, -, -, calls⟩ :=
    verifies_what_restores (by decide) current listed "text" 1
  refine ⟨code, wiped.1 code, ⟨v, collected, ?_⟩, handle "a", ?_⟩
  · simp only [checks, List.map_map, Function.comp_def, results]
  · rw [files, code] at calls
    exact calls

end Report

end SnapshotStore
