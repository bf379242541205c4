import SnapshotStore.Proofs.Backup.Creation

/-!
Opening a backup directory: a new keeper over a new engine. `Opens` says what must be there
afterwards, and that nothing of the disk is lost.
-/

namespace SnapshotStore

open OrderedMap

/-- A keeper with the site that it stands on. -/
structure Standpoint where
  keeper : Keeper
  site : Site

/-- Runs an activity of a keeper on its site. -/
def Activity.runOn {ε α : Type} (body : Activity ε α) (p : Standpoint) :
    Except ε α × Standpoint :=
  let ended := (body.script p.keeper).run Site.answer p.site
  (ended.1.1, ⟨ended.1.2, ended.2⟩)

/-- Opens a directory on a disk with a new keeper over a new engine. -/
def opening (path : String) (format : Format) (batchSize : Nat) (d : Disk) :
    Except StoreError Unit × Standpoint :=
  Keeper.create.runOn ⟨Keeper.new path format batchSize, .fresh d⟩

/-- Whether opening a directory gives exactly some partitions, all of them tracked, and discards
nothing. -/
structure Opens (path : String) (format : Format) (batchSize : Nat) (d : Disk)
    (contents : OrderedMap String (OrderedMap Bytes Bytes)) : Prop where
  succeeds : (opening path format batchSize d).1 = .ok ()
  partitions : (opening path format batchSize d).2.site.engine.contents = contents
  tracked : (opening path format batchSize d).2.keeper.trackedNames = contents.keys
  intact : d.Within (opening path format batchSize d).2.site.disk

/-- What a directory opens with: how the opening ends, the partitions, and the names that are
tracked. -/
def opensWith (path : String) (format : Format) (batchSize : Nat) (d : Disk) :
    Except StoreError Unit × OrderedMap String (OrderedMap Bytes Bytes) × List String :=
  let created := opening path format batchSize d
  (created.1, created.2.site.engine.contents, created.2.keeper.trackedNames)

/-- What is to be restored from a directory: what its backup pictures, or nothing where it holds no
backup. -/
inductive Restores (d : Disk) (dir : Path) (format : Format) :
    OrderedMap String (OrderedMap Bytes Bytes) → Prop where
  | held {latest : Option BackupRecord} {files : List (String × List Entry)}
    (holds : Holds d dir format latest files) : Restores d dir format (pictured files)
  | nothing (none : ∀ latest files, ¬Holds d dir format latest files) :
    Restores d dir format .empty

theorem Restores.unique {d : Disk} {dir : Path} {format : Format}
    {contents contents' : OrderedMap String (OrderedMap Bytes Bytes)}
    (h : Restores d dir format contents) (h' : Restores d dir format contents') :
    contents = contents' := by
  cases h with
  | held holds =>
    cases h' with
    | held holds' => rw [(holds.unique holds').2]
    | nothing none => exact absurd holds (none _ _)
  | nothing none =>
    cases h' with
    | held holds => exact absurd holds (none _ _)
    | nothing _ => rfl

/-- What is restored is known by what matters to a backup. -/
theorem Restores.congr {d d' : Disk} {dir : Path} {root : Location} {format : Format}
    {contents : OrderedMap String (OrderedMap Bytes Bytes)} (h : Restores d dir format contents)
    (leads : d.LeadsTo dir root) (leads' : d'.LeadsTo dir root)
    (same : ∀ latest, SameBackup root latest d d') : Restores d' dir format contents := by
  cases h with
  | held holds => exact .held (holds.congr leads leads' (same _))
  | nothing none =>
    refine .nothing fun latest files holds => none latest files ?_
    exact holds.congr leads' leads (same latest).symm

namespace Site

/-- What opening gives where the directory can be made. -/
theorem of_opening {path : String} {d made : Disk} (format : Format) (batchSize : Nat)
    (makes : d.call (.makeDirectories (Path.ofDirectory path)) = (.ok (), made)) :
    ∃ k s contents, opening path format batchSize d = (.ok (), ⟨k, s⟩) ∧ k.path = path ∧
      k.format = format ∧ s.engine.Sound ∧ Keeps k s contents ∧
      Restores made (Path.ofDirectory path) format contents ∧
      ((∃ latest files, Holds made (Path.ofDirectory path) format latest files) → s.disk = made) := by
  have ended := (calm_fresh d).ends (meets_create (k := Keeper.new path format batchSize)
    Engine.sound_empty rfl rfl ⟨rfl, rfl⟩ makes)
  rw [Ends] at ended
  rw [opening, Activity.runOn]
  dsimp only
  generalize Script.run (I := keeperInterface) answer _ (fresh d) = final at ended
  obtain ⟨⟨result, k⟩, s⟩ := final
  obtain ⟨tracked, ended, outcome⟩ := ended
  obtain ⟨rfl, rfl⟩ := Prod.mk.inj ended
  refine ⟨{ Keeper.new path format batchSize with tracked, phase := .ready }, s, ?_⟩
  cases outcome with
  | loaded _ holds keeps busy =>
    exact ⟨_, rfl, rfl, rfl, busy.sound, keeps, .held holds, fun _ => busy.disk⟩
  | cleared owed discarded =>
    have none : ∀ latest files, ¬Holds made (Path.ofDirectory path) format latest files :=
      owed.resolve_left fun struck => struck.1 rfl
    refine ⟨_, rfl, rfl, rfl, discarded.sound, discarded.empty fun _ => List.not_mem_nil,
      .nothing none, ?_⟩
    rintro ⟨latest, files, holds⟩
    exact absurd holds (none latest files)

theorem opens_of_holds {path : String} {format : Format} {latest : Option BackupRecord}
    {files : List (String × List Entry)} {d made : Disk} (batchSize : Nat)
    (makes : d.call (.makeDirectories (Path.ofDirectory path)) = (.ok (), made))
    (holds : Holds made (Path.ofDirectory path) format latest files) :
    Opens path format batchSize d (pictured files) := by
  have within := Disk.within_makeDirectories d (Path.ofDirectory path)
  rw [makes] at within
  obtain ⟨k, s, contents, opened, -, -, -, keeps, restores, disk⟩ := of_opening format batchSize makes
  rw [restores.unique (.held holds)] at keeps
  refine ⟨by rw [opened], ?_, ?_, ?_⟩
  · rw [opened]
    exact keeps.held
  · rw [opened]
    show k.tracked.keys = _
    rw [keeps.tracked, keys_map]
  · rw [opened]
    exact disk ⟨latest, files, holds⟩ ▸ within

end Site

/-- What a directory opens with is what is to be restored from it. -/
theorem opensWith_of_restores {path : String} {format : Format} {d made : Disk}
    {contents : OrderedMap String (OrderedMap Bytes Bytes)} (batchSize : Nat)
    (makes : d.call (.makeDirectories (Path.ofDirectory path)) = (.ok (), made))
    (restores : Restores made (Path.ofDirectory path) format contents) :
    opensWith path format batchSize d = (.ok (), contents, contents.keys) := by
  obtain ⟨k, s, contents', opened, -, -, -, keeps, restores', -⟩ :=
    Site.of_opening format batchSize makes
  obtain rfl := restores'.unique restores
  have names : k.trackedNames = contents'.keys := (congrArg keys keeps.tracked).trans (keys_map _ _)
  rw [opensWith, opened, ← names, ← keeps.held]

theorem restores_exists (d : Disk) (dir : Path) (format : Format) :
    ∃ contents, Restores d dir format contents := by
  by_cases held : ∃ latest files, Holds d dir format latest files
  · obtain ⟨latest, files, holds⟩ := held
    exact ⟨_, .held holds⟩
  · exact ⟨_, .nothing fun latest files holds => held ⟨latest, files, holds⟩⟩

/-- Nothing opens under a path that no call takes. -/
theorem opensWith_of_fault {path : String} {fault : DiskFault}
    (unsound : Path.fault? (Path.ofDirectory path) = some fault) (format : Format) (batchSize : Nat)
    (d : Disk) : opensWith path format batchSize d = (.error (.io fault), .empty, []) := by
  have makes : d.call (.makeDirectories (Path.ofDirectory path)) = (.error fault, d) := by
    rw [Disk.call, unsound]
  have answered : Site.answer (.disk (.makeDirectories (Path.ofDirectory path))) (.fresh d) =
      (.error fault, .fresh d) :=
    (Site.onDisk_of_calm (Site.calm_fresh d) _).trans (by rw [Site.fresh, makes])
  have ended : Site.Ends (fun r s => r = (.error (.io fault), Keeper.new path format batchSize) ∧
      s = .fresh d) (Keeper.create.script (Keeper.new path format batchSize)) (.fresh d) := by
    rw [Keeper.create, Activity.script_get_bind, Activity.script_disk_bind]
    exact Site.ends_ask answered (Site.ends_done ⟨rfl, rfl⟩)
  obtain ⟨result, site⟩ := ended
  rw [opensWith, opening, Activity.runOn]
  dsimp only
  rw [result, site]
  rfl

end SnapshotStore
