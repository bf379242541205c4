import SnapshotStore.Proofs.Backup.Lives

/-!
A backup is loaded as a whole or not at all. Whatever a directory holds, and wherever the reading of
a snapshot, the opening of a partition or the putting of an entry fails, a keeper that is created
over an engine without partitions is ready, and it has either exactly the backup that the directory
holds, with the disk as it was, or nothing, in a directory without backups. The first is the case if
and only if the directory holds a backup, or none, and nothing failed (`loads_all_or_nothing`).
-/

namespace SnapshotStore

open Site OrderedMap Disk

/-- Whether a keeper has exactly the partitions of the backup that a disk holds, tracks their names,
and has left the disk. -/
def Standpoint.Loaded (p : Standpoint) (d : Disk) : Prop :=
  ∃ latest files, Holds d p.keeper.directory p.keeper.format latest files ∧
    p.site.engine.contents = pictured files ∧ p.keeper.trackedNames = (pictured files).keys ∧
    p.site.disk = d

/-- Whether a keeper has no partition, tracks no name, and has taken nothing from a disk but what is
below a location, where no backup is left. -/
structure Standpoint.Emptied (p : Standpoint) (root : Location) (d : Disk) : Prop where
  contents : p.site.engine.contents = .empty
  tracked : p.keeper.trackedNames = []
  bare : Bare root p.site.disk
  lessens : Lessens root d p.site.disk

theorem Engine.registered_of_contents {e : Engine} (h : e.contents = .empty) (name : String) :
    e.registered.get? name = none := by
  rw [← Option.not_isSome_iff_eq_none, ← isSome_contents, h]
  exact nofun

theorem Engine.sound_of_contents {e : Engine} (h : e.contents = .empty) : e.Sound := by
  constructor
  · intro name id known
    rw [registered_of_contents h] at known
    cases known
  · intro name name' id known
    rw [registered_of_contents h] at known
    cases known

/-- A disk on which the manifest was read is not one from which it was removed. -/
theorem Disk.Serves.not_bare {d : Disk} {dir : Path} {root : Location} {content : Bytes}
    (serves : d.Serves dir root) (there : d.fileAt (Place.manifest dir) = .ok content) :
    ¬Bare root d := by
  intro bare
  rw [fileAt, call, Place.manifest, serves.find_name isSlim_manifest] at there
  cases stands : d.node? (root ++ [Manifest.fileName]) with
  | none =>
    rw [stands] at there
    cases there
  | some node =>
    cases node with
    | directory =>
      rw [stands] at there
      cases there
    | file content => exact bare.manifest content stands

/-- A keeper loads the whole of a backup, or is left with nothing. -/
theorem loads_all_or_nothing {path : String} {format : Format} {batchSize : Nat} {s : Site}
    {made : Disk} {root : Location} (unused : s.engine.contents = .empty)
    (opened : s.engine.isClosed = false) (steady : s.diskFaults = [])
    (makes : s.disk.call (.makeDirectories (Path.ofDirectory path)) = (.ok (), made))
    (serves : made.Serves (Path.ofDirectory path) root)
    (spared : ∀ name, KeeperRequest.removePartition name ∉
      struck (Keeper.create.script (Keeper.new path format batchSize)) s) :
    let created := Keeper.create.runOn ⟨Keeper.new path format batchSize, s⟩
    created.1 = .ok () ∧ created.2.keeper.phase = .ready ∧
      (created.2.Loaded made ∨ created.2.Emptied root made) ∧
      (created.2.Loaded made ↔
        (∃ latest files, Holds made (Path.ofDirectory path) format latest files) ∧
          struck (Keeper.create.script (Keeper.new path format batchSize)) s = []) := by
  have ended := meets_create (k := Keeper.new path format batchSize)
    (Engine.sound_of_contents unused) opened steady ⟨unused, rfl⟩ makes
  rw [Meets] at ended
  rw [Activity.runOn]
  dsimp only
  generalize struck _ s = faults at ended spared ⊢
  generalize Script.run (I := keeperInterface) answer _ s = final at ended ⊢
  obtain ⟨⟨result, k⟩, s'⟩ := final
  obtain ⟨tracked, ended, outcome⟩ := ended
  obtain ⟨rfl, rfl⟩ := Prod.mk.inj ended
  refine ⟨rfl, rfl, ?_⟩
  let k' : Keeper := { Keeper.new path format batchSize with tracked, phase := .ready }
  cases outcome with
  | @loaded latest files unharmed holds keeps busy =>
    have whole : Standpoint.Loaded ⟨k', s'⟩ made := by
      refine ⟨latest, files, holds, keeps.held, ?_, busy.disk⟩
      exact (congrArg keys keeps.tracked).trans (keys_map _ _)
    exact ⟨.inl whole, fun _ => ⟨⟨latest, files, holds⟩, unharmed⟩, fun _ => whole⟩
  | cleared owed discarded =>
    have keeps := discarded.empty spared
    have emptied : Standpoint.Emptied ⟨k', s'⟩ root made := by
      refine ⟨keeps.held, ?_, discarded.bare serves, discarded.lessens serves⟩
      exact congrArg keys keeps.tracked
    refine ⟨.inr emptied, fun whole => ?_, ?_⟩
    · obtain ⟨latest, files, holds, -, -, kept⟩ := whole
      rcases owed with ⟨-, content, there⟩ | none
      · exact absurd (kept ▸ emptied.bare) (serves.not_bare there)
      · exact absurd holds (none latest files)
    · rintro ⟨⟨latest, files, holds⟩, unharmed⟩
      rcases owed with ⟨struck, -⟩ | none
      · exact absurd unharmed struck
      · exact absurd holds (none latest files)

/-- Two partitions were backed up, and the only entry of the second cannot be put. -/
theorem loads_all_or_nothing_second_put :
    let manifest := Utf8.encode ("\x7b\"Backups\":[\x7b\"Id\":\"00000000000000000000000000000005\"," ++
      "\"SerializationFormat\":\"Cbor\",\"TimestampUtc\":\"1970-01-01T00:00:00Z\"," ++
      "\"Stores\":[\"a\",\"c\"]\x7d]\x7d")
    let backup := ["b", "00000000-0000-0000-0000-000000000005"]
    let disk := Disk.empty.set ["b"] .directory |>.set ["b", "meta.json"] (.file manifest)
      |>.set backup .directory
      |>.set (backup ++ ["a.bin"]) (.file (Format.cbor.write [([1], [2])]))
      |>.set (backup ++ ["c.bin"]) (.file (Format.cbor.write [([3], [4])]))
    let s : Site := ⟨.empty, disk, default, default, [none, none, none, some .closed], [], []⟩
    let created := Keeper.create.runOn ⟨Keeper.new "b" .cbor 1, s⟩
    struck (Keeper.create.script (Keeper.new "b" .cbor 1)) s = [.call 1 (.put [3] [4])] ∧
      created.1 = .ok () ∧ created.2.Emptied ["b"] disk := by
  intro manifest backup disk s created
  have struck : struck (Keeper.create.script (Keeper.new "b" .cbor 1)) s =
      [.call 1 (.put [3] [4])] := by
    decide +kernel
  have leads : disk.LeadsTo ["b"] ["b"] := by
    show disk.walk [] .directory ["b"] = _
    decide +kernel
  clear_value disk
  have isName : ∀ name ∈ ["b"], IsName name :=
    List.forall_mem_singleton.2 ⟨by decide, by decide⟩
  have serves : disk.Serves (Path.ofDirectory "b") ["b"] :=
    ⟨reaches_of_names isName leads, by decide +kernel, by decide, by decide +kernel⟩
  have spared : ∀ name, KeeperRequest.removePartition name ∉
      Site.struck (Keeper.create.script (Keeper.new "b" .cbor 1)) s := by
    rw [struck]
    simp
  obtain ⟨succeeded, -, outcome, whole⟩ := @loads_all_or_nothing "b" .cbor 1 s disk ["b"] rfl rfl rfl
    (makeDirectories_of_leadsTo serves.reaches.leadsTo serves.sound) serves spared
  refine ⟨struck, succeeded, outcome.resolve_left fun loaded => ?_⟩
  have none := (whole.1 loaded).2
  rw [struck] at none
  cases none

end SnapshotStore
