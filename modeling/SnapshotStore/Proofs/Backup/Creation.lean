import SnapshotStore.Proofs.Backup.Clearing
import SnapshotStore.Proofs.Backup.Restore

/-!
The creation of a keeper on a disk that does what it is asked to, while all else may fail. Whatever
the directory holds, the keeper ends with the backup that it holds, or with nothing in a directory
without backups (`meets_create`).
-/

namespace SnapshotStore.Site

open Keeper OrderedMap Disk

variable {k : Keeper} {s s' : Site} {d : Disk} {names : List String}

/-! ## Discarding -/

/-- A keeper and an engine that know no name have nothing. -/
theorem Among.keeps (h : Among [] k s) : Keeps k s .empty := by
  constructor
  · refine ext_get? fun name => Option.not_isSome_iff_eq_none.1 fun known => ?_
    rw [Engine.isSome_contents] at known
    exact List.not_mem_nil (h.registered name known)
  · exact ext_get? fun name => Option.not_isSome_iff_eq_none.1 fun known =>
      List.not_mem_nil (h.tracked name known)

/-- Names are given up one by one, unless the giving up of one meets a fault. -/
theorem meets_discardStores (opened : s.engine.isClosed = false) (sound : s.engine.Sound)
    (names : List String) :
    Meets (fun faults r s' => ∃ tracked, r = (.ok (), { k with tracked }) ∧
        s'.engine.isClosed = false ∧ s'.engine.Sound ∧ s'.disk = s.disk ∧
        s'.diskFaults = s.diskFaults ∧ ((∀ name, .removePartition name ∉ faults) →
          Among names k s → Among [] { k with tracked } s'))
      ((discardStores names).script k) s := by
  induction names generalizing k s with
  | nil => exact meets_done ⟨k.tracked, rfl, opened, sound, rfl, rfl, fun _ among => among⟩
  | cons name names ih =>
    rw [discardStores, Activity.script_ask_bind]
    rcases s.onEngine_strikes fun e => e.removePartition name with
      ⟨e, hit, answered⟩ | ⟨spared, answered⟩
    · refine meets_ask_struck answered hit ?_
      rw [Activity.script_change_bind]
      refine (ih (k := untrack name k) (s := { s with engineFaults := s.engineFaults.tail }) opened
        sound).mono ?_
      rintro faults _ s' ⟨tracked, rfl, opened', sound', disk, steady, -⟩
      exact ⟨tracked, rfl, opened', sound', disk, steady,
        fun none => absurd (List.mem_cons_self ..) (none name)⟩
    · obtain ⟨engine, removed, opened', registered⟩ := Engine.removePartition_open opened name
      have sound' := Engine.sound_removePartition sound name
      rw [removed] at answered sound'
      refine meets_ask_spared answered spared ?_
      rw [Activity.script_change_bind]
      refine (ih (k := untrack name k)
        (s := { s with engine, engineFaults := s.engineFaults.tail }) opened' sound').mono ?_
      rintro faults _ s' ⟨tracked, rfl, opened', sound', disk, steady, rest⟩
      refine ⟨tracked, rfl, opened', sound', disk, steady, fun none among => rest none ⟨?_, ?_⟩⟩
      · intro other known
        rw [registered] at known
        split at known
        · cases known
        · rename_i apart
          exact (List.mem_cons.1 (among.registered other known)).resolve_left (Ne.symm apart)
      · intro other known
        rw [untrack, get?_erase] at known
        split at known
        · cases known
        · rename_i apart
          exact (List.mem_cons.1 (among.tracked other known)).resolve_left (Ne.symm apart)

/-- How a keeper is left that has discarded all backups: with nothing, unless the giving up of a
name has met a fault. -/
structure Discarded (dir : Path) (d : Disk) (faults : List KeeperRequest) (k : Keeper) (s : Site) :
    Prop where
  opened : s.engine.isClosed = false
  sound : s.engine.Sound
  empty : (∀ name, .removePartition name ∉ faults) → Keeps k s .empty
  lessens : ∀ {root}, d.Serves dir root → Lessens root d s.disk
  bare : ∀ {root}, d.Serves dir root → Bare root s.disk

theorem Discarded.mono {dir : Path} {faults more : List KeeperRequest}
    (h : Discarded dir d faults k s) (sub : ∀ r ∈ faults, r ∈ more) : Discarded dir d more k s :=
  ⟨h.opened, h.sound, fun none => h.empty fun name mem => none name (sub _ mem), h.lessens, h.bare⟩

theorem meets_discard (busy : Busy d s) (among : Among names k s) :
    Meets (fun faults r s' => ∃ tracked, r = (.ok (), { k with tracked }) ∧
        Discarded k.directory d faults { k with tracked } s')
      ((Keeper.discard names).script k) s := by
  rw [Keeper.discard, Activity.script_bind]
  apply (meets_discardStores busy.opened busy.sound names).bind
  rintro faults _ s₁ ⟨tracked, rfl, opened, sound, disk, steady, gone⟩
  refine (meets_clear (steady.trans busy.steady)).mono ?_
  rintro more _ s' ⟨rfl, thinner, bare⟩
  rw [disk, busy.disk] at bare
  have lessens := @thinner.disk
  rw [disk, busy.disk] at lessens
  refine ⟨tracked, rfl, thinner.engine ▸ opened, thinner.engine ▸ sound, fun none => ?_, lessens,
    fun {root} => bare root⟩
  have none' : ∀ name, .removePartition name ∉ faults :=
    fun name mem => none name (List.mem_append_left _ mem)
  obtain ⟨held, tracked⟩ := (gone none' among).keeps
  exact ⟨thinner.engine ▸ held, tracked⟩

/-! ## Restoring -/

/-- How a restore ends: with the backup that the disk holds, or with all backups discarded, which
is owed to a fault after the manifest was read, or to what the disk holds. -/
inductive RestoringEnds (k : Keeper) (d : Disk) (faults : List KeeperRequest) (k' : Keeper)
    (s : Site) : Prop where
  | loaded {latest : Option BackupRecord} {files : List (String × List Entry)}
    (unharmed : faults = []) (holds : Holds d k.directory k.format latest files)
    (keeps : Keeps k' s (pictured files)) (busy : Busy d s)
  | cleared (owed : (faults ≠ [] ∧ ∃ content, d.fileAt (Place.manifest k.directory) = .ok content) ∨
      ∀ latest files, ¬Holds d k.directory k.format latest files)
    (discarded : Discarded k.directory d faults k' s)

theorem meets_restore (busy : Busy d s) (keeps : Keeps k s .empty) :
    Meets (fun faults r s' => ∃ tracked, r = (.ok (), { k with tracked }) ∧
        RestoringEnds k d faults { k with tracked } s')
      (restore.script k) s := by
  have none : Keeps k s (pictured []) := keeps
  have disk := busy.disk
  rw [restore, Activity.script_outcome_bind]
  apply (meets_restorable busy.steady).bind
  rintro _ _ _ ⟨result, rfl, rfl, rfl, found⟩
  rw [disk] at found
  cases found with
  | nothing holds => exact meets_done ⟨k.tracked, rfl, .loaded rfl holds none busy⟩
  | unfit unfit =>
    refine (meets_discard busy (none.among)).mono ?_
    rintro faults _ s' ⟨tracked, rfl, discarded⟩
    exact ⟨tracked, rfl, .cleared (.inr unfit) discarded⟩
  | @backup content manifest record there read latest same =>
    show Meets _ (Activity.script (restoreStores record.id record.stores >>= _) k) _
    rw [Activity.script_bind]
    apply (meets_restoreStores busy none (fun _ mem => absurd mem List.not_mem_nil) _).bind
    rintro faults _ s₁ ⟨tracked, opened, result, rfl, busy₁, ended⟩
    cases ended with
    | whole unharmed spelled keeps' =>
      subst unharmed
      exact meets_done ⟨tracked, rfl,
        .loaded rfl (.backup read latest same spelled.1 spelled.2) keeps' busy₁⟩
    | broken owed among =>
      refine (meets_discard busy₁ among).mono ?_
      rintro more _ s' ⟨tracked', rfl, discarded⟩
      refine ⟨tracked', rfl, .cleared ?_ (discarded.mono ?_)⟩
      · rcases owed with struck | unspelled
        · exact .inl ⟨by simp [struck], content, there⟩
        · refine .inr fun latest' files holds => ?_
          exact unspelled files (holds.of_manifest read latest).2
      · exact fun r mem => List.mem_append_right _ (List.mem_append_right _ mem)

/-- Whatever a directory holds and whatever fails, a keeper of it comes into being. -/
theorem meets_create {made : Disk} (sound : s.engine.Sound) (opened : s.engine.isClosed = false)
    (steady : s.diskFaults = []) (keeps : Keeps k s .empty)
    (makes : s.disk.call (.makeDirectories k.directory) = (.ok (), made)) :
    Meets (fun faults r s' => ∃ tracked, r = (.ok (), { k with tracked, phase := .ready }) ∧
        RestoringEnds k made faults { k with tracked, phase := .ready } s')
      (create.script k) s := by
  rw [create, Activity.script_get_bind, Activity.script_disk_bind]
  apply meets_disk_of_steady steady
  rw [makes]
  show Meets _ (Activity.script (Activity.change (inPhase .restoring) >>= _) k) _
  rw [Activity.script_change_bind, Activity.script_bind]
  have busy : Busy made { s with disk := made } := ⟨sound, opened, rfl, steady⟩
  apply (meets_restore (k := inPhase .restoring k) busy ⟨keeps.held, keeps.tracked⟩).bind
  rintro faults _ s' ⟨tracked, rfl, ended⟩
  refine meets_done ⟨tracked, rfl, ?_⟩
  rw [List.append_nil]
  cases ended with
  | loaded unharmed holds keeps busy => exact .loaded unharmed holds ⟨keeps.held, keeps.tracked⟩ busy
  | cleared owed discarded =>
    obtain ⟨opened, sound, empty, lessens, bare⟩ := discarded
    exact .cleared owed ⟨opened, sound, fun none => ⟨(empty none).held, (empty none).tracked⟩,
      lessens, bare⟩

end SnapshotStore.Site
