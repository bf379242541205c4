import SnapshotStore.Proofs.Backup.Stored
import SnapshotStore.Proofs.Backup.Strikes
import SnapshotStore.Proofs.Engine

/-!
Restoring, while the engine and the reading of snapshots may fail. Without a fault the partitions
are made that the files of a backup picture, and a loading that fails gives back the names that were
opened up to it, which are all that the keeper or the engine knows (`meets_restoreStores`). Which
backup is loaded is decided by the manifest alone (`meets_restorable`).
-/

namespace SnapshotStore

open Keeper OrderedMap

/-- The partitions that files spell. -/
def pictured (files : List (String × List Entry)) : OrderedMap String (OrderedMap Bytes Bytes) :=
  ofList (files.map fun file => (file.1, ofList file.2))

theorem pictured_concat (files : List (String × List Entry)) (file : String × List Entry) :
    pictured (files ++ [file]) = (pictured files).insert file.1 (ofList file.2) := by
  rw [pictured, List.map_append, ofList, List.foldl_append]
  rfl

/-- A name that is spelled again is spelled the same. -/
theorem pictured_again {files : List (String × List Entry)} {file : String × List Entry}
    (same : ∀ f ∈ files, f.1 = file.1 → f.2 = file.2) :
    (((pictured files).get? file.1).getD .empty).insertAll file.2 = ofList file.2 := by
  have known : (pictured files).get? file.1 = none ∨
      (pictured files).get? file.1 = some (ofList file.2) := by
    rw [pictured, get?_ofList]
    cases h : lookup file.1 (files.map fun file => (file.1, ofList file.2)).reverse with
    | none => exact .inl rfl
    | some entries =>
      obtain ⟨f, mem, e⟩ := List.mem_map.1 (List.mem_reverse.1 (mem_of_lookup h))
      obtain ⟨named, rfl⟩ := Prod.mk.inj e
      rw [same f mem named]
      exact .inr rfl
  rcases known with h | h
  · rw [h]
    rfl
  · rw [h]
    exact insertAll_ofList file.2

namespace Site

variable {k : Keeper} {s s' : Site} {d : Disk} {names : List String}

/-- How an activity ends that fails only if it meets a fault or is given something unfit. -/
def Settled {ε α : Type} (faults : List KeeperRequest) (fine : α → Prop) (unfit : Prop) :
    Except ε α → Prop
  | .ok a => faults = [] ∧ fine a
  | .error _ => faults ≠ [] ∨ unfit

/-- A site in the middle of a loading, on a disk that does what it is asked to. -/
structure Busy (d : Disk) (s : Site) : Prop where
  sound : s.engine.Sound
  opened : s.engine.isClosed = false
  disk : s.disk = d
  steady : s.diskFaults = []

theorem meets_read {α : Type} {E : List KeeperRequest → α → Site → Prop} {path : Path}
    {resume : (KeeperRequest.disk (.read path)).Reply → Script keeperInterface α}
    (steady : s.diskFaults = []) (next : Meets E (resume (s.disk.fileAt path)) s) :
    Meets E (.ask (.disk (.read path)) resume) s := by
  apply meets_disk_of_steady steady
  rw [Disk.call_read]
  exact next

/-! ## One snapshot -/

/-- Entries are loaded over those of the partition; a fault leaves some of them out. -/
theorem meets_loadEntries {name : String} {id : PartitionId} (entries : List Entry)
    (busy : Busy d s) (registered : s.engine.registered.get? name = some id) :
    Meets (fun faults r s' => ∃ result, r = (result, k) ∧ Busy d s' ∧
        s'.engine.registered = s.engine.registered ∧
        Settled faults (fun _ => s'.engine.contents =
          s.engine.contents.insert name ((s.engine.entriesOf name).insertAll entries)) False result)
      ((loadEntries id entries).script k) s := by
  induction entries generalizing s with
  | nil =>
    refine meets_done ⟨.ok (), rfl, busy, rfl, rfl, (insert_of_get? ?_).symm⟩
    rw [Engine.get?_contents, registered]
    exact congrArg some (Engine.entriesOf_registered registered).symm
  | cons entry entries ih =>
    obtain ⟨key, value⟩ := entry
    rw [loadEntries, Activity.script_ask_bind]
    rcases s.onEngine_strikes fun e =>
        (.ok (e.call id (.put key value)).1, (e.call id (.put key value)).2) with
      ⟨e, hit, answered⟩ | ⟨spared, answered⟩
    · refine meets_ask_struck answered hit (meets_done ?_)
      exact ⟨_, rfl, ⟨busy.sound, busy.opened, busy.disk, busy.steady⟩, rfl,
        .inl (List.cons_ne_nil _ _)⟩
    · refine meets_ask_spared answered spared ?_
      have put := Engine.contents_put busy.sound registered key value
      have next : Busy d { s with
          engine := (s.engine.call id (.put key value)).2, engineFaults := s.engineFaults.tail } :=
        ⟨Engine.sound_call busy.sound id (.put key value), busy.opened, busy.disk, busy.steady⟩
      refine (ih next registered).mono ?_
      rintro faults _ s' ⟨result, rfl, busy', same, settled⟩
      refine ⟨result, rfl, busy', same, ?_⟩
      cases result with
      | error e => exact settled
      | ok _ =>
        refine ⟨settled.1, ?_⟩
        rw [settled.2, Engine.entriesOf, put, get?_insert, if_pos rfl, insert_insert]
        rfl

theorem meets_readSnapshot (busy : Busy d s) (id : Id) (entity : String) :
    Meets (fun faults r s' => ∃ result, r = (result, k) ∧ Busy d s' ∧ s'.engine = s.engine ∧
        Settled faults (fun entries =>
            k.format.ofFile (d.fileAt (Place.snapshot k.directory id entity)) = .ok entries)
          (∀ entries,
            k.format.ofFile (d.fileAt (Place.snapshot k.directory id entity)) ≠ .ok entries) result)
      ((readSnapshot id entity).script k) s := by
  obtain ⟨sound, opened, rfl, steady⟩ := busy
  rw [readSnapshot, Activity.script_get_bind, Activity.script_ask_bind]
  rcases s.onCodec_strikes with ⟨e, hit, answered⟩ | ⟨spared, answered⟩
  · refine meets_ask_struck answered hit (meets_done ?_)
    exact ⟨_, rfl, ⟨sound, opened, rfl, steady⟩, rfl, .inl (List.cons_ne_nil _ _)⟩
  · refine meets_ask_spared answered spared ?_
    show Meets _ (Activity.script (Activity.ask _ >>= _) k) _
    rw [Activity.script_ask_bind]
    refine meets_read (s := { s with codecFaults := _ }) steady ?_
    rw [Activity.script_ofExcept]
    refine meets_done ⟨_, rfl, ⟨sound, opened, rfl, steady⟩, rfl, ?_⟩
    cases k.format.ofFile (s.disk.fileAt (Place.snapshot k.directory id entity)) with
    | error e => exact .inr nofun
    | ok entries => exact ⟨rfl, rfl⟩

/-! ## All snapshots -/

/-- Whether the files of a backup spell entries for each of some names. -/
def Spelled (k : Keeper) (d : Disk) (id : Id) (names : List String)
    (files : List (String × List Entry)) : Prop :=
  files.map Prod.fst = names ∧ ∀ file ∈ files,
    k.format.ofFile (d.fileAt (Place.snapshot k.directory id file.1)) = .ok file.2

theorem Spelled.cons {id : Id} {name : String} {entries : List Entry}
    {files : List (String × List Entry)}
    (here : k.format.ofFile (d.fileAt (Place.snapshot k.directory id name)) = .ok entries)
    (rest : Spelled k d id names files) : Spelled k d id (name :: names) ((name, entries) :: files) :=
  ⟨by rw [List.map_cons, rest.1], List.forall_mem_cons.2 ⟨here, rest.2⟩⟩

theorem Spelled.of_cons {id : Id} {name : String} {files : List (String × List Entry)}
    (h : Spelled k d id (name :: names) files) :
    (∃ entries,
        k.format.ofFile (d.fileAt (Place.snapshot k.directory id name)) = .ok entries) ∧
      ∃ rest, Spelled k d id names rest := by
  obtain ⟨same, spelled⟩ := h
  cases files with
  | nil => cases same
  | cons file files =>
    obtain ⟨rfl, rfl⟩ := List.cons.inj same
    obtain ⟨here, rest⟩ := List.forall_mem_cons.1 spelled
    exact ⟨⟨_, here⟩, files, rfl, rest⟩

/-- Whether the engine registers, and the keeper tracks, none but some names. -/
structure Among (names : List String) (k : Keeper) (s : Site) : Prop where
  registered : ∀ name, (s.engine.registered.get? name).isSome = true → name ∈ names
  tracked : ∀ name, (k.tracked.get? name).isSome = true → name ∈ names

theorem isSome_pictured {files : List (String × List Entry)} {name : String}
    (h : ((pictured files).get? name).isSome = true) : name ∈ files.map Prod.fst := by
  rw [pictured, get?_ofList] at h
  obtain ⟨entries, found⟩ := Option.isSome_iff_exists.1 h
  obtain ⟨file, mem, e⟩ := List.mem_map.1 (List.mem_reverse.1 (mem_of_lookup found))
  exact List.mem_map.2 ⟨file, mem, (Prod.mk.inj e).1⟩

/-- A keeper over contents that it tracks as a whole. -/
structure Keeps (k : Keeper) (s : Site) (contents : OrderedMap String (OrderedMap Bytes Bytes)) :
    Prop where
  held : s.engine.contents = contents
  tracked : k.tracked = contents.map fun _ _ => ()

/-- A keeper that keeps what files picture knows their names only. -/
theorem Keeps.among {files : List (String × List Entry)} (h : Keeps k s (pictured files)) :
    Among (files.map Prod.fst) k s := by
  refine ⟨fun name known => isSome_pictured ?_, fun name known => isSome_pictured ?_⟩
  · rw [← h.held, Engine.isSome_contents]
    exact known
  · rw [h.tracked, get?_map, Option.isSome_map] at known
    exact known

/-- How the loading of snapshots ends: with what their files picture, or with a failure and the
names that were opened up to it. -/
inductive LoadingEnds (k : Keeper) (d : Disk) (id : Id) (done : List (String × List Entry))
    (names : List String) (faults : List KeeperRequest) (k' : Keeper) (s : Site) :
    List String → Except StoreError Unit → Prop where
  | whole {files : List (String × List Entry)} {opened : List String}
    (unharmed : faults = []) (spelled : Spelled k d id names files)
    (keeps : Keeps k' s (pictured (done ++ files))) :
    LoadingEnds k d id done names faults k' s opened (.ok ())
  | broken {opened : List String} {e : StoreError}
    (owed : faults ≠ [] ∨ ∀ files, ¬Spelled k d id names files)
    (among : Among (done.map Prod.fst ++ opened) k' s) :
    LoadingEnds k d id done names faults k' s opened (.error e)

section Loading

variable {id : Id} {name : String} {entries : List Entry} {done : List (String × List Entry)}
  {engine : Engine} {s' : Site}

/-- A name that was opened is known beside those that were loaded. -/
theorem Keeps.opened (h : Keeps k s (pictured done))
    (contents : engine.contents = s.engine.contents.insert name (s.engine.entriesOf name))
    (same : s'.engine.registered = engine.registered) :
    Among (done.map Prod.fst ++ [name]) k s' := by
  refine ⟨fun other known => ?_, fun other known => List.mem_append_left _ (h.among.tracked other known)⟩
  rw [same, ← Engine.isSome_contents, contents, get?_insert, h.held] at known
  split at known
  · rename_i named
    simp [named]
  · exact List.mem_append_left _ (isSome_pictured known)

/-- The entries of one more file are put into the partition of its name. -/
theorem Keeps.loaded (h : Keeps k s (pictured done))
    (contents : engine.contents = s.engine.contents.insert name (s.engine.entriesOf name))
    (again : ∀ f ∈ done, f.1 = name → f.2 = entries)
    (loaded : s'.engine.contents =
      engine.contents.insert name ((engine.entriesOf name).insertAll entries)) :
    Keeps (track name k) s' (pictured (done ++ [(name, entries)])) := by
  have opened : engine.entriesOf name = s.engine.entriesOf name := by
    rw [Engine.entriesOf, contents, get?_insert, if_pos rfl, Option.getD_some]
  constructor
  · rw [loaded, opened, contents, insert_insert, Engine.entriesOf, h.held, pictured_concat]
    exact congrArg ((pictured done).insert name) (@pictured_again done (name, entries) again)
  · rw [pictured_concat, map_insert, ← h.tracked]
    rfl

/-- The loading of a file and then of the others ends as the latter does. -/
theorem LoadingEnds.cons {names opened : List String} {faults : List KeeperRequest} {k' : Keeper}
    {result : Except StoreError Unit}
    (here : k.format.ofFile (d.fileAt (Place.snapshot k.directory id name)) = .ok entries)
    (ended : LoadingEnds (track name k) d id (done ++ [(name, entries)]) names faults k' s' opened
      result) :
    LoadingEnds k d id done (name :: names) faults k' s' (name :: opened) result := by
  cases ended with
  | whole unharmed whole keeps =>
    rw [List.append_assoc] at keeps
    exact .whole unharmed (.cons here whole) keeps
  | broken owed among =>
    refine .broken (owed.imp_right fun none files whole => ?_) ?_
    · obtain ⟨-, rest, whole'⟩ := whole.of_cons
      exact none rest whole'
    · rw [List.map_append, List.append_assoc] at among
      exact among

theorem meets_restoreStores (busy : Busy d s) (keeps : Keeps k s (pictured done))
    (spelled : ∀ file ∈ done,
      k.format.ofFile (d.fileAt (Place.snapshot k.directory id file.1)) = .ok file.2)
    (names : List String) :
    Meets (fun faults r s' => ∃ tracked opened result,
        r = (.ok (opened, result), { k with tracked }) ∧ Busy d s' ∧
          LoadingEnds k d id done names faults { k with tracked } s' opened result)
      ((restoreStores id names).script k) s := by
  induction names generalizing k s done with
  | nil =>
    have spelt : Spelled k d id [] [] := ⟨rfl, fun _ mem => absurd mem List.not_mem_nil⟩
    refine meets_done ⟨k.tracked, [], .ok (), rfl, busy, .whole rfl spelt ?_⟩
    rw [List.append_nil]
    exact keeps
  | cons name names ih =>
    rw [restoreStores, Activity.script_outcome_bind, Activity.script_wrapping, Script.bind_assoc]
    apply (meets_readSnapshot busy id name).bind
    rintro faults _ s₁ ⟨result, rfl, busy₁, engine₁, settled⟩
    have keeps₁ : Keeps k s₁ (pictured done) := ⟨engine₁ ▸ keeps.held, keeps.tracked⟩
    cases result with
    | error e =>
      refine meets_done ⟨k.tracked, [], _, rfl, busy₁, .broken ?_ ?_⟩
      · rw [List.append_nil]
        refine settled.imp_right fun unfit files whole => ?_
        obtain ⟨⟨entries, here⟩, -⟩ := whole.of_cons
        exact unfit entries here
      · rw [List.append_nil]
        exact keeps₁.among
    | ok entries =>
      obtain ⟨rfl, here⟩ := settled
      show Meets _ (Activity.script (Activity.ask (.openPartition name) >>= _) _) _
      rw [Activity.script_ask_bind]
      rcases s₁.onEngine_strikes fun e => e.openPartition name with
        ⟨e, hit, answered⟩ | ⟨spared, answered⟩
      · refine meets_ask_struck answered hit (meets_done ⟨k.tracked, [], _, rfl,
          ⟨busy₁.sound, busy₁.opened, busy₁.disk, busy₁.steady⟩, .broken (.inl (by simp)) ?_⟩)
        rw [List.append_nil]
        exact Keeps.among ⟨keeps₁.held, keeps₁.tracked⟩
      obtain ⟨partition, engine, opened, sound, isOpen, registered, contents⟩ :=
        Engine.openPartition_open busy₁.sound busy₁.opened name
      rw [opened] at answered
      refine meets_ask_spared answered spared ?_
      show Meets _ (Activity.script (Activity.outcome _ >>= _) _) _
      rw [Activity.script_outcome_bind, Activity.script_wrapping, Script.bind_assoc]
      have busy₂ : Busy d { s₁ with engine, engineFaults := s₁.engineFaults.tail } :=
        ⟨sound, isOpen, busy₁.disk, busy₁.steady⟩
      apply (meets_loadEntries entries busy₂ registered).bind
      rintro faults _ s₃ ⟨result, rfl, busy₃, same, settled⟩
      cases result with
      | error e =>
        refine meets_done ⟨k.tracked, [name], _, rfl, busy₃, .broken (.inl ?_)
          (keeps₁.opened contents same)⟩
        simpa using settled.resolve_right not_false
      | ok _ =>
        obtain ⟨rfl, loaded⟩ := settled
        show Meets _ (Activity.script (Activity.change (track name) >>= _) _) _
        rw [Activity.script_change_bind, Activity.script_bind]
        have again : ∀ f ∈ done, f.1 = name → f.2 = entries := by
          intro f mem named
          have there := spelled f mem
          rw [named, here] at there
          exact (Except.ok.inj there).symm
        have spelled' : ∀ f ∈ done ++ [(name, entries)],
            k.format.ofFile (d.fileAt (Place.snapshot k.directory id f.1)) = .ok f.2 :=
          List.forall_mem_append.2 ⟨spelled, List.forall_mem_singleton.2 here⟩
        refine (ih (k := track name k) busy₃ (keeps₁.loaded contents again loaded) spelled').bind ?_
        rintro faults _ s' ⟨tracked', opened', result, rfl, busy', ended⟩
        refine meets_done ⟨tracked', name :: opened', result, rfl, busy', ?_⟩
        have settled : LoadingEnds k d id done (name :: names) faults { k with tracked := tracked' }
          s' (name :: opened') result := ended.cons here
        simpa using settled

end Loading

/-! ## The backup to be restored -/

/-- What is to be restored from a disk: the backup that it holds, nothing, or an error where it
holds no backup. -/
inductive Found (k : Keeper) (d : Disk) : Except StoreError (Option BackupRecord) → Prop where
  | nothing (holds : Holds d k.directory k.format none []) : Found k d (.ok none)
  | backup {content : Bytes} {manifest : Manifest} {record : BackupRecord}
    (there : d.fileAt (Place.manifest k.directory) = .ok content)
    (read : Manifest.ofFile (d.fileAt (Place.manifest k.directory)) = .ok (some manifest))
    (latest : manifest.latest? = some record) (same : record.format = k.format) :
    Found k d (.ok (some record))
  | unfit {e : StoreError} (none : ∀ latest files, ¬Holds d k.directory k.format latest files) :
    Found k d (.error e)

theorem meets_restorable (steady : s.diskFaults = []) :
    Meets (fun faults r s' => ∃ result, r = (result, k) ∧ faults = [] ∧ s' = s ∧
        Found k s.disk result)
      (restorable.script k) s := by
  rw [restorable, Activity.script_bind, loadManifest, Activity.script_get_bind,
    Activity.script_ask_bind, Script.ask_bind]
  apply meets_read steady
  rw [Activity.script_ofExcept, Script.done_bind]
  cases read : Manifest.ofFile (s.disk.fileAt (Place.manifest k.directory)) with
  | error e =>
    refine meets_done ⟨.error e, rfl, rfl, rfl, .unfit fun _ _ holds => ?_⟩
    obtain ⟨_, read'⟩ := holds.manifest
    rw [read] at read'
    cases read'
  | ok found =>
    cases found with
    | none => exact meets_done ⟨.ok none, rfl, rfl, rfl, .nothing (.absent read)⟩
    | some manifest =>
      dsimp only [Except.mapError]
      cases latest : manifest.latest? with
      | none => exact meets_done ⟨.ok none, rfl, rfl, rfl, .nothing (.blank read latest)⟩
      | some record =>
        show Meets _ (Activity.script (get >>= _) k) _
        rw [Activity.script_get_bind]
        by_cases same : record.format = k.format
        · rw [if_pos same]
          cases there : s.disk.fileAt (Place.manifest k.directory) with
          | ok content =>
            exact meets_done ⟨.ok (some record), rfl, rfl, rfl, .backup there read latest same⟩
          | error fault =>
            rw [there] at read
            cases fault <;> cases read
        · rw [if_neg same]
          refine meets_done ⟨_, rfl, rfl, rfl, .unfit fun _ _ holds => ?_⟩
          exact same (holds.of_manifest read latest).1

end Site

end SnapshotStore
