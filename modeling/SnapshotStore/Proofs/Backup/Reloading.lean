import SnapshotStore.Proofs.Backup.Tidying
import SnapshotStore.Stack

/-!
Manifests saved and loaded. Where a manifest can be put into a directory (`Disk.TakesManifest`), it
takes the place of the one before, leaves nothing under its temporary name, and is loaded as it was
saved. Main statement: this holds for every manifest whose times can be written, and for every
manifest that was itself loaded, however it was spelled (`loads_what_is_saved`).
-/

namespace SnapshotStore

open Disk Stack Keeper

namespace Disk

variable {d : Disk} {dir : Path} {root : Location}

/-- Whether a manifest can be put into the directory that a path with a step leads to: neither of its
two names is that of a directory, and the longer one does not make the path too long. -/
structure TakesManifest (d : Disk) (dir : Path) (root : Location) : Prop where
  leads : d.LeadsTo dir root
  named : dir ≠ []
  sound : Path.fault? (Place.temporary dir) = none
  temporary : d.node? (root ++ [Manifest.temporaryName]) ≠ some .directory
  manifest : d.node? (root ++ [Manifest.fileName]) ≠ some .directory

theorem TakesManifest.takes_temporary (h : d.TakesManifest dir root) :
    d.Takes dir root [] Manifest.temporaryName :=
  ⟨h.leads, ⟨h.sound, by decide⟩, by rw [List.append_nil, walk_nil], h.temporary⟩

theorem TakesManifest.takes_manifest (h : d.TakesManifest dir root) :
    d.Takes dir root [] Manifest.fileName :=
  ⟨h.leads, ⟨fault?_of_shorter h.sound (by decide) (by decide), by decide⟩,
    by rw [List.append_nil, walk_nil], h.manifest⟩

theorem TakesManifest.write (h : d.TakesManifest dir root) (content : Bytes) :
    d.call (.write (Place.temporary dir) content) =
      (.ok (), d.set (root ++ [Manifest.temporaryName]) (.file content)) :=
  write_of_takes h.takes_temporary isName_temporary content

/-- What is written under the temporary name goes to its place. -/
theorem TakesManifest.rename (h : d.TakesManifest dir root) (content : Bytes) :
    (d.set (root ++ [Manifest.temporaryName]) (.file content)).call
        (.rename (Place.temporary dir) (Place.manifest dir)) =
      (.ok (), d.withManifest root content) := by
  refine rename_of_takes ?_ ?_ isName_manifest
  · exact find_set (by simpa using isName_temporary) h.takes_temporary content
  · refine h.takes_manifest.of_keepsDirectories (keepsDirectories_set _ h.temporary) ?_
    rw [node?_set]
    split
    · rintro ⟨⟩
    · exact h.manifest

theorem node?_withManifest (d : Disk) (root : Location) (content : Bytes) (q : Location) :
    (d.withManifest root content).node? q =
      if root ++ [Manifest.fileName] = q then some (.file content)
      else if root ++ [Manifest.temporaryName] = q then none
      else d.node? q := by
  rw [withManifest, node?_set, node?_erase, node?_set]
  split
  · rfl
  · split <;> rfl

theorem TakesManifest.keepsDirectories (h : d.TakesManifest dir root) (content : Bytes) :
    KeepsDirectories d (d.withManifest root content) := by
  intro q stands
  rw [node?_withManifest, if_neg, if_neg]
  · exact stands
  · rintro rfl
    exact h.temporary stands
  · rintro rfl
    exact h.manifest stands

/-- The manifest that is put into a directory is the file that is found there. -/
theorem TakesManifest.fileAt (h : d.TakesManifest dir root) (content : Bytes) :
    (d.withManifest root content).fileAt (Place.manifest dir) = .ok content := by
  have put : (d.withManifest root content).node? (root ++ ([] ++ [Manifest.fileName])) =
      some (.file content) := by
    rw [List.nil_append, node?_withManifest, if_pos rfl]
  have takes := h.takes_manifest.of_keepsDirectories (h.keepsDirectories content)
    (by rw [put]; rintro ⟨⟩)
  have found := takes.find isName_manifest
  rw [put] at found
  exact fileAt_of_find found

/-- The directory can be made to last once a manifest was put into it. -/
theorem TakesManifest.sync (h : d.TakesManifest dir root) (content : Bytes) :
    (d.withManifest root content).call (.sync dir) = (.ok (), d.withManifest root content) := by
  have leads : (d.withManifest root content).walk [] .directory dir = .ok (root, .directory) :=
    h.leads.of_keepsDirectories (h.keepsDirectories content)
  rw [call, find_eq_walk (fault?_append_left h.sound) h.named, leads]

end Disk

section Running

variable {k : Keeper} {p : Platform} {root : Location}

theorem answer_disk (p : Platform) (c : DiskCall) :
    Platform.answer (.disk c) p =
      ((p.disk.call c).1, { p.giveWay with disk := (p.disk.call c).2 }) := rfl

/-- Saving succeeds, and changes nothing but the manifest. -/
theorem runKeeper_saveManifest (h : p.disk.TakesManifest k.directory root) (manifest : Manifest) :
    ∃ saved, runKeeper k p (saveManifest manifest) = ((.ok (), k), saved) ∧
      saved.disk = p.disk.withManifest root manifest.write := by
  refine ⟨{ p.giveWay.giveWay.giveWay with disk := p.disk.withManifest root manifest.write }, ?_,
    rfl⟩
  show Script.run (I := keeperInterface) Platform.answer ((saveManifest manifest).script k) p = _
  rw [Activity.script_saveManifest, Script.run_ask, answer_disk, h.write]
  dsimp only
  rw [Script.run_ask, answer_disk]
  dsimp only
  rw [h.rename]
  dsimp only
  rw [Activity.script_disk, Script.run_ask, answer_disk]
  dsimp only
  rw [h.sync]
  rfl

theorem runKeeper_loadManifest (k : Keeper) (p : Platform) :
    runKeeper k p loadManifest =
      ((Manifest.ofFile (p.disk.fileAt (Place.manifest k.directory)), k), p.giveWay) := by
  show Script.run (I := keeperInterface) Platform.answer (loadManifest.script k) p = _
  rw [loadManifest, Activity.script_get_bind, Activity.script_ask_bind, Script.run_ask, answer_disk,
    call_read, Activity.script_ofExcept, Script.run_done]
  cases Manifest.ofFile (p.disk.fileAt (Place.manifest k.directory)) <;> rfl

/-- What is saved is loaded. -/
theorem runKeeper_loadManifest_saved (h : p.disk.TakesManifest k.directory root)
    {manifest : Manifest} (shown : ∀ record ∈ manifest.backups, record.completed.IsShown) :
    ∃ saved loaded, runKeeper k p (saveManifest manifest) = ((.ok (), k), saved) ∧
      saved.disk = p.disk.withManifest root manifest.write ∧
      runKeeper k saved loadManifest = ((.ok (some manifest), k), loaded) := by
  obtain ⟨saved, saves, disk⟩ := runKeeper_saveManifest h manifest
  refine ⟨saved, saved.giveWay, saves, disk, ?_⟩
  rw [runKeeper_loadManifest, disk, h.fileAt, Manifest.ofFile, Manifest.read_write shown]
  rfl

/-- Where a manifest can be put into a directory, every manifest whose times can be written is saved
in the place of what stood there, nothing else is left or changed, and it is loaded as it was saved.
A manifest that was loaded, whatever its spelling, is loaded again after it is saved. -/
theorem loads_what_is_saved (h : p.disk.TakesManifest k.directory root) :
    (∀ manifest : Manifest, (∀ record ∈ manifest.backups, record.completed.IsShown) →
      ∃ saved loaded, runKeeper k p (saveManifest manifest) = ((.ok (), k), saved) ∧
        runKeeper k saved loadManifest = ((.ok (some manifest), k), loaded) ∧
        saved.disk.node? (root ++ [Manifest.temporaryName]) = none ∧
        saved.disk.node? (root ++ [Manifest.fileName]) = some (.file manifest.write) ∧
        ∀ q, q ≠ root ++ [Manifest.temporaryName] → q ≠ root ++ [Manifest.fileName] →
          saved.disk.node? q = p.disk.node? q) ∧
    ∀ manifest first, runKeeper k p loadManifest = ((.ok (some manifest), k), first) →
      ∃ saved loaded, runKeeper k first (saveManifest manifest) = ((.ok (), k), saved) ∧
        runKeeper k saved loadManifest = ((.ok (some manifest), k), loaded) := by
  have apart : root ++ [Manifest.fileName] ≠ root ++ [Manifest.temporaryName] := fun same =>
    temporary_ne_manifest (List.singleton_inj.1 (List.append_cancel_left same)).symm
  constructor
  · intro manifest shown
    obtain ⟨saved, loaded, saves, disk, loads⟩ := runKeeper_loadManifest_saved h shown
    refine ⟨saved, loaded, saves, loads, ?_, ?_, fun q other other' => ?_⟩
    · rw [disk, node?_withManifest, if_neg apart, if_pos rfl]
    · rw [disk, node?_withManifest, if_pos rfl]
    · rw [disk, node?_withManifest, if_neg other'.symm, if_neg other.symm]
  · intro manifest first loads
    rw [runKeeper_loadManifest, Prod.mk.injEq, Prod.mk.injEq] at loads
    obtain ⟨⟨read, -⟩, rfl⟩ := loads
    have shown := Manifest.isShown_of_ofFile read
    obtain ⟨saved, loaded, saves, -, loads⟩ :=
      runKeeper_loadManifest_saved (p := p.giveWay) h shown
    exact ⟨saved, loaded, saves, loads⟩

/-- Both ways in a directory with a manifest of another spelling, which holds a leap second, and with
what is left of an earlier one. -/
theorem loads_what_is_saved_leap :
    let text := "\x7b\"Other\":[1],\"Backups\":[[\"urn:uuid:00112233-4455-6677-8899-AABBCCDDEEFF\"," ++
      "\"Cbor\",\"2016-12-31t23:59:60.5+01:30\",[\"a\\\"\\u0001\\\\\"]]]\x7d"
    let p := Platform.new (Disk.empty.set ["b"] .directory
      |>.set ["b", "meta.json"] (.file (Utf8.encode text))
      |>.set ["b", "meta.json.tmp"] (.file [1]))
    let k := Keeper.new "b" .cbor 1
    let leap : BackupRecord := ⟨⟨0x00112233445566778899aabbccddeeff⟩, .cbor,
      ⟨1483223399, 1500000000⟩, ["a\"\x01\\"]⟩
    let last : BackupRecord := ⟨⟨5⟩, .taggedRecords, ⟨253402300799, 999999999⟩, ["", "𝄞\n"]⟩
    (∃ saved loaded, runKeeper k p (saveManifest ⟨[last, leap]⟩) = ((.ok (), k), saved) ∧
      runKeeper k saved loadManifest = ((.ok (some ⟨[last, leap]⟩), k), loaded) ∧
      saved.disk.node? ["b", "meta.json.tmp"] = none) ∧
    ∃ first saved loaded, runKeeper k p loadManifest = ((.ok (some ⟨[leap]⟩), k), first) ∧
      runKeeper k first (saveManifest ⟨[leap]⟩) = ((.ok (), k), saved) ∧
      runKeeper k saved loadManifest = ((.ok (some ⟨[leap]⟩), k), loaded) := by
  intro text p k leap last
  have leads : p.disk.walk [] .directory k.directory = .ok (["b"], .directory) := by decide +kernel
  have takes : p.disk.TakesManifest k.directory ["b"] :=
    ⟨leads, by decide, by decide +kernel, by decide +kernel, by decide +kernel⟩
  have shown : ∀ record ∈ [last, leap], record.completed.IsShown := by
    simp only [List.forall_mem_cons, List.not_mem_nil, false_implies, implies_true, and_true]
    exact ⟨⟨by decide +kernel, by decide, by decide⟩, ⟨by decide +kernel, by decide, by decide⟩⟩
  have first : runKeeper k p loadManifest = ((.ok (some ⟨[leap]⟩), k), p.giveWay) := by
    have read : Manifest.ofFile (p.disk.fileAt (Place.manifest k.directory)) =
        .ok (some ⟨[leap]⟩) := by
      decide +kernel
    rw [runKeeper_loadManifest, read]
  obtain ⟨saves, reloads⟩ := loads_what_is_saved takes
  obtain ⟨saved, loaded, saving, loading, gone, -⟩ := saves ⟨[last, leap]⟩ shown
  obtain ⟨saved', loaded', again⟩ := reloads _ _ first
  exact ⟨⟨saved, loaded, saving, loading, gone⟩, p.giveWay, saved', loaded', first, again⟩

end Running

end SnapshotStore
