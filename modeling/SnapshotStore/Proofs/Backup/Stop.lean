import SnapshotStore.Proofs.Backup.Opening
import SnapshotStore.Proofs.Backup.Snapshot

/-!
A backup that is stopped. Whichever of its requests was the last, the directory opens with the
backup before it as long as the manifest was not replaced, and with the new one from then on
(`opens_wherever_stopped`). Temporary files and directories that were not finished or not yet
removed make no difference, and none of them is discarded. What fails makes no difference either,
but for one case: a backup that is complete is removed if the backup directory cannot be made to last
and the manifest cannot be read to see that it names the backup.
-/

namespace SnapshotStore

open Site OrderedMap

/-- The disk that a backup leaves opens with what it recovers. -/
theorem Site.Taking.opens {k : Keeper} {s₀ s : Site} {root : Location}
    {latest : Option BackupRecord} {files : List (String × List Entry)} {moved : Bool}
    (h : Taking k s₀ root latest files moved s) (batchSize : Nat) :
    Opens k.path k.format batchSize s.disk
      (if moved then k.holdings s₀.engine else pictured files) := by
  obtain ⟨_, _, recovers⟩ := h
  obtain ⟨made, makes, leads, holds⟩ := recovers.made
  have opens := opens_of_holds batchSize makes holds
  cases moved with
  | true =>
    rw [← pictured_files]
    exact opens
  | false => exact opens

/-- Whether a request reads a file. -/
def KeeperRequest.Reads : KeeperRequest → Prop
  | .disk (.read _) => True
  | _ => False

/-- A directory opens with the backup before or with the new one, wherever the taking of the new one
is stopped, unless both the last call that makes the directory last and the reading of the manifest
after it meet a fault. -/
theorem opens_wherever_stopped {k : Keeper} {s : Site} {root : Location}
    {latest : Option BackupRecord} {files : List (String × List Entry)}
    (prepared : Prepared k s root latest files) (pages n batchSize : Nat)
    (spared : (∀ r ∈ struck ((Keeper.snapshot pages).script k) s, ¬r.Reads) ∨
      k.directory ≠ [] ∧
        .disk (.sync k.directory) ∉ struck ((Keeper.snapshot pages).script k) s) :
    Opens k.path k.format batchSize (stop n ((Keeper.snapshot pages).script k) s).2.disk
      (if (stop n ((Keeper.snapshot pages).script k) s).1.any Event.commits
        then k.holdings s.engine else pictured files) := by
  have taking : Taking k s root latest files
      (stop n ((Keeper.snapshot pages).script k) s |>.1.any Event.commits)
      (stop n ((Keeper.snapshot pages).script k) s).2 := by
    rcases spared with unread | ⟨named, synced⟩
    · exact (upholds_snapshot prepared (fun _ _ => trivial) pages).stopped unread n
    · have lasts : Lasts (· = .disk (.sync k.directory)) k := ⟨rfl, named⟩
      refine (upholds_snapshot prepared (fun late => absurd lasts late) pages).stopped ?_ n
      rintro _ mem rfl
      exact synced mem
  exact taking.opens batchSize

/-- The partition `a` with one entry is backed up over a temporary file that was left behind. -/
theorem opens_wherever_stopped_left :
    let opened := (Engine.empty.openPartition "a").2
    let engine := (opened.call 0 (.put [1] [2])).2
    let disk : Disk := (Disk.empty.set ["b"] .directory).set ["b", "meta.json.tmp"] (.file [7])
    let k : Keeper := { Keeper.new "b" .cbor 1 with tracked := OrderedMap.empty.insert "a" () }
    let s : Site := ⟨engine, disk, ⟨5⟩, ⟨0, 0⟩, [], [], []⟩
    Prepared k s ["b"] none [] ∧
      (stop 10 ((Keeper.snapshot 2).script k) s).1.any Event.commits = false ∧
      Opens "b" .cbor 3 (stop 10 ((Keeper.snapshot 2).script k) s).2.disk .empty ∧
      (stop 11 ((Keeper.snapshot 2).script k) s).1.any Event.commits = true ∧
      Opens "b" .cbor 3 (stop 11 ((Keeper.snapshot 2).script k) s).2.disk (k.holdings engine) := by
  intro opened engine disk k s
  have leads : s.disk.walk [] .directory k.directory = .ok (["b"], .directory) := by
    decide +kernel
  have missing : s.disk.fileAt (Place.manifest k.directory) = .error .missing := by
    decide +kernel
  have sound : engine.Sound :=
    Engine.sound_call (Engine.sound_openPartition Engine.sound_empty "a") 0 (.put [1] [2])
  have prepared : Prepared k s ["b"] none [] :=
    ⟨leads, .absent (by rw [missing]; rfl), nofun, sound, ⟨by decide, by decide⟩,
      by decide +kernel⟩
  have before : (stop 10 ((Keeper.snapshot 2).script k) s).1.any Event.commits = false := by
    decide +kernel
  have after : (stop 11 ((Keeper.snapshot 2).script k) s).1.any Event.commits = true := by
    decide +kernel
  have unread : ∀ r ∈ struck ((Keeper.snapshot 2).script k) s, ¬r.Reads := by
    rw [Calm.struck_eq_nil ⟨rfl, rfl, rfl⟩]
    exact nofun
  refine ⟨prepared, before, ?_, after, ?_⟩
  · have opens := opens_wherever_stopped prepared 2 10 3 (.inl unread)
    rw [before] at opens
    exact opens
  · have opens := opens_wherever_stopped prepared 2 11 3 (.inl unread)
    rw [after] at opens
    exact opens

-- Where both fail, the manifest names a backup that is gone.
example :
    let s : Site := ⟨.empty, Disk.empty.set ["b"] .directory, ⟨5⟩, ⟨0, 0⟩, [], [],
      [none, none, none, none, some (.clean .device), some (.clean .device)]⟩
    let left := (stop 9 ((Keeper.snapshot 2).script (Keeper.new "b" .cbor 1)) s).2.disk
    (left.node? ["b", "meta.json"]).isSome ∧
      left.node? ["b", "00000000-0000-0000-0000-000000000005"] = none := by
  decide +kernel

end SnapshotStore
