import SnapshotStore.Proofs.Backup.Clearing
import SnapshotStore.Proofs.Backup.Pages
import SnapshotStore.Proofs.Backup.Reachable

/-!
A backup that fails. While it is written, a disk changes inside the directory of its identifier and
at the temporary name of the manifest only (`Draft`), and once that directory is removed, the disk is
as it was, but for a file that was left behind under the temporary name (`Undone`).
-/

namespace SnapshotStore

open Site OrderedMap Disk

/-- The location of the temporary name of the manifest. -/
def temporaryPlace (root : Location) : Location := root ++ [Manifest.temporaryName]

/-- A disk on which a backup is being written: another one but for the directory of its identifier,
which is not there yet or is there as a whole, and for a file under the temporary name of the
manifest, which may be gone. -/
structure Draft (d : Disk) (dir : Path) (root : Location) (id : Id) (d' : Disk) : Prop where
  leads : d'.LeadsTo dir root
  same : ∀ q, ¬root ++ [id.render] <+: q → q ≠ temporaryPlace root → d'.node? q = d.node? q
  temporary : d'.node? (temporaryPlace root) = d.node? (temporaryPlace root) ∨
    d'.node? (temporaryPlace root) = none ∧
      ∃ content, d.node? (temporaryPlace root) = some (.file content)
  inside : (∀ q, root ++ [id.render] <+: q → d'.node? q = none) ∨
    d'.node? (root ++ [id.render]) = some .directory ∧ Path.fault? (dir ++ [id.render]) = none

/-- Whether a disk is another one, but for a file under the temporary name of the manifest, which
may be gone. -/
def Undone (root : Location) (d d' : Disk) : Prop :=
  d' = d ∨ d' = d.erase (temporaryPlace root) ∧
    ∃ content, d.node? (temporaryPlace root) = some (.file content)

/-- Whether a request removes something from the disk. -/
def KeeperRequest.Removes : KeeperRequest → Prop
  | .disk (.removeFile _) | .disk (.removeTree _) => True
  | _ => False

namespace Draft

variable {d d' d₁ : Disk} {dir : Path} {root : Location} {id : Id}

theorem not_below_id (id : Id) : ¬root ++ [id.render] <+: temporaryPlace root := by
  intro below
  have same := (List.cons_prefix_cons.1 ((List.prefix_append_right_inj root).1 below)).1
  exact (ne_of_parse? (Id.parse?_render id)).2 same

theorem start (leads : d.LeadsTo dir root)
    (vacant : ∀ q, root ++ [id.render] <+: q → d.node? q = none) : Draft d dir root id d :=
  ⟨leads, fun _ _ _ => rfl, .inl rfl, .inl vacant⟩

/-- A change inside the directory of the identifier, which is there afterwards. -/
theorem change (h : Draft d dir root id d') (keeps : KeepsDirectories d' d₁)
    (changes : ChangesOnly d' d₁ (root ++ [id.render]))
    (stands : d₁.node? (root ++ [id.render]) = some .directory)
    (sound : Path.fault? (dir ++ [id.render]) = none) : Draft d dir root id d₁ := by
  refine ⟨h.leads.of_keepsDirectories keeps, fun q apart other => ?_, ?_, .inr ⟨stands, sound⟩⟩
  · exact (changes q apart).trans (h.same q apart other)
  · rw [changes _ (not_below_id id)]
    exact h.temporary

/-- A change at the temporary name, which no file has afterwards. -/
theorem dropped (h : Draft d dir root id d') (keeps : KeepsDirectories d' d₁)
    (same : ∀ q, q ≠ temporaryPlace root → d₁.node? q = d'.node? q)
    (gone : d₁.node? (temporaryPlace root) = none)
    (free : d'.node? (temporaryPlace root) ≠ some .directory) : Draft d dir root id d₁ := by
  have apart : ∀ q, root ++ [id.render] <+: q → q ≠ temporaryPlace root := by
    rintro _ below rfl
    exact not_below_id id below
  refine ⟨h.leads.of_keepsDirectories keeps, fun q outside other => ?_, ?_, ?_⟩
  · exact (same q other).trans (h.same q outside other)
  · rcases h.temporary with kept | ⟨-, left⟩
    · cases stands : d.node? (temporaryPlace root) with
      | none => exact .inl gone
      | some node =>
        cases node with
        | directory => exact absurd (kept.trans stands) free
        | file content => exact .inr ⟨gone, content, rfl⟩
    · exact .inr ⟨gone, left⟩
  · refine h.inside.imp (fun none q below => ?_) fun ⟨stands, sound⟩ => ⟨?_, sound⟩
    · exact (same q (apart q below)).trans (none q below)
    · exact (same _ (apart _ List.prefix_rfl)).trans stands

/-- A file under the temporary name is removed. -/
theorem drop (h : Draft d dir root id d') :
    Draft d dir root id (d'.call (.removeFile (Place.temporary dir))).2 := by
  rcases removeFile_cases h.leads.only isName_temporary with
    ⟨fault, failed⟩ | ⟨content, stands, done⟩
  · rw [Place.temporary, failed]
    exact h
  · have file : d'.node? (temporaryPlace root) ≠ some .directory := by
      rw [temporaryPlace, stands]
      exact nofun
    rw [Place.temporary, done]
    refine h.dropped (keepsDirectories_erase file) (fun q other => ?_) ?_ file
    · exact (node?_erase _ _ _).trans (if_neg (Ne.symm other))
    · exact (node?_erase _ _ _).trans (if_pos rfl)

/-- What was written under the temporary name is removed. -/
theorem drop_written (h : Draft d dir root id d')
    (takes : d'.Takes dir root [] Manifest.temporaryName) (content : Bytes) :
    Draft d dir root id
      ((d'.set (temporaryPlace root) (.file content)).call (.removeFile (Place.temporary dir))).2 := by
  have isTemporary : ∀ n ∈ [] ++ [Manifest.temporaryName], IsName n := by
    simpa using isName_temporary
  have found := find_set isTemporary takes content
  have free := takes.free
  simp only [List.nil_append] at found free
  have done : ((d'.set (temporaryPlace root) (.file content)).call
      (.removeFile (Place.temporary dir))).2 =
        (d'.set (temporaryPlace root) (.file content)).erase (temporaryPlace root) := by
    rw [call, Place.temporary, temporaryPlace, found]
  rw [done]
  refine h.dropped ?_ (fun q other => ?_) ?_ free
  · refine (keepsDirectories_set (.file content) free).trans (keepsDirectories_erase ?_)
    simp [temporaryPlace, node?_set]
  · rw [node?_erase, if_neg (Ne.symm other), node?_set, if_neg (Ne.symm other)]
  · rw [node?_erase, if_pos rfl]

/-- The manifest is the one before. -/
theorem fileAt_manifest (h : Draft d dir root id d') (leads : d.LeadsTo dir root) :
    d'.fileAt (Place.manifest dir) = d.fileAt (Place.manifest dir) := by
  refine fileAt_congr h.leads leads (by simpa using isName_manifest) fun q nonempty below => ?_
  rcases List.prefix_cons_iff.1 below with rfl | ⟨t, rfl, rest⟩
  · exact absurd rfl nonempty
  obtain rfl := List.prefix_nil.1 rest
  refine h.same _ (fun inside => ?_) fun same => ?_
  · have name := (List.cons_prefix_cons.1 ((List.prefix_append_right_inj root).1 inside)).1
    exact (ne_of_parse? (Id.parse?_render id)).1 name
  · have name := List.append_cancel_left same
    exact temporary_ne_manifest (List.cons.inj name).1.symm

/-- Once the directory of the identifier is removed, nothing is left of the backup. -/
theorem undone (h : Draft d dir root id d')
    (vacant : ∀ q, root ++ [id.render] <+: q → d.node? q = none) :
    Undone root d (d'.call (.removeTree (dir ++ [id.render]))).2 := by
  have slim := isSlim_of_parse? (Id.parse?_render id)
  have gone : ∀ q, (d'.call (.removeTree (dir ++ [id.render]))).2.node? q =
      if root ++ [id.render] <+: q then none else d'.node? q := by
    intro q
    rcases h.inside with none | ⟨stands, sound⟩
    · rcases removeTree_cases h.leads.only slim.toIsName with ⟨fault, failed⟩ | done
      · rw [failed]
        split
        · rename_i below
          exact none q below
        · rfl
      · rw [done, node?_eraseTree]
    · have found : d'.find (dir ++ [id.render]) = .ok (root ++ [id.render], .directory) := by
        rw [find_below h.leads sound (List.cons_ne_nil _ _), walk_directory,
          enter_name slim.toIsName, slim.isTooLong, if_neg Bool.false_ne_true, stands]
        rfl
      have done : (d'.call (.removeTree (dir ++ [id.render]))).2 =
          d'.eraseTree (root ++ [id.render]) := by
        rw [call, found]
        simp only [endsUnnamed_name slim.toIsName, Bool.false_eq_true, if_false]
      rw [done, node?_eraseTree]
  generalize (d'.call (.removeTree (dir ++ [id.render]))).2 = last at gone
  have others : ∀ q, q ≠ temporaryPlace root → last.node? q = d.node? q := by
    intro q other
    rw [gone]
    split
    · rename_i below
      exact (vacant q below).symm
    · rename_i apart
      exact h.same q apart other
  have spared := gone (temporaryPlace root)
  rw [if_neg (not_below_id id)] at spared
  have temporary := h.temporary
  rw [← spared] at temporary
  rcases temporary with kept | ⟨none, left⟩
  · refine .inl (ext_node? fun q => ?_)
    by_cases here : q = temporaryPlace root
    · rw [here, kept]
    · exact others q here
  · refine .inr ⟨ext_node? fun q => ?_, left⟩
    rw [node?_erase]
    split
    · rename_i here
      rw [← here, none]
    · rename_i other
      exact others q (Ne.symm other)

end Draft

namespace Site

open Keeper

variable {k : Keeper} {s s' : Site} {d : Disk} {root : Location} {id : Id}

theorem Like.draft (like : Like s s') (h : Draft d k.directory root id s.disk) :
    Draft d k.directory root id s'.disk :=
  like.disk ▸ h

/-! ## Writing -/

theorem ends_readAll (pages : Nat) (name : String) :
    Ends (fun r s' => r.2 = k ∧ s'.disk = s.disk) ((readAll pages name).script k) s := by
  rw [readAll, Activity.script_get_bind, Activity.script_ask_bind]
  have paging : ∀ (s : Site) (partition : Nat), Ends (fun r s' => r.2 = k ∧ s'.disk = s.disk)
      ((readPages partition k.batchSize pages none).script k) s := by
    intro s partition
    have read : Upholds (fun _ => False) (fun _ _ => True) _
        ((readPages partition k.batchSize pages none).script k) false s :=
      upholds_readPages k partition k.batchSize pages none fun _ _ => trivial
    refine (read.ends fun _ _ => not_false).mono ?_
    rintro r s' ⟨_, -, kept, -, like, -⟩
    exact ⟨kept, like.disk⟩
  rcases s.onEngine_cases fun e => e.openPartition name with
    ⟨e, s₁, answered, like⟩ | ⟨s₁, answered, engaged⟩
  · exact ends_ask answered (ends_done ⟨rfl, like.disk⟩)
  refine ends_ask answered ?_
  rw [Activity.script_ofExcept_bind]
  cases (s.engine.openPartition name).1 with
  | error e => exact ends_done ⟨rfl, engaged.disk⟩
  | ok partition =>
    rw [← engaged.disk]
    exact paging s₁ partition

theorem ends_writeSnapshot (h : Draft d k.directory root id s.disk) (name : String)
    (entries : List Entry) :
    Ends (fun r s' => r.2 = k ∧ Draft d k.directory root id s'.disk)
      ((writeSnapshot id name entries).script k) s := by
  rw [writeSnapshot, Activity.script_get_bind, Activity.script_ask_bind]
  have like := s.like_onCodec
  cases answered : s.onCodec with | mk reply s₁ =>
  rw [answered] at like
  replace like : Like s s₁ := like
  refine ends_ask answered ?_
  rw [Activity.script_ofExcept_bind]
  cases reply with
  | error e => exact ends_done ⟨rfl, like.draft h⟩
  | ok _ =>
    have h₁ := like.draft h
    dsimp only
    rw [Activity.script_disk, snapshot_eq]
    rcases answer_write_cases h₁.leads.only (fun _ => isName_of_mem_snapshot)
        (k.format.write entries) with
      ⟨fault, s₂, answered, like⟩ | ⟨reply, part, s₂, answered, placed, takes, -⟩
    · exact ends_ask answered (ends_done ⟨rfl, like.draft h₁⟩)
    refine ends_ask answered (ends_done ⟨rfl, ?_⟩)
    rw [placed.disk]
    have sound : Path.fault? (k.directory ++ [id.render]) = none := by
      have whole := takes.storable.sound
      rw [← List.append_assoc] at whole
      exact fault?_append_left whole
    refine h₁.change (keepsDirectories_set _ takes.free) ?_ ?_ sound
    · have changes := changesOnly_set s₁.disk (root ++ ([id.render] ++ [FileName.snapshot name]))
        (.file part)
      refine fun q apart => changes q fun below => apart ?_
      rw [← List.append_assoc] at below
      exact (List.prefix_append _ _).trans below
    · have isName : ∀ n ∈ [id.render], IsName n := by simpa using isName_render id
      rw [node?_set, if_neg (by simp)]
      exact (of_walk_names isName takes.inside).2.1 (List.cons_ne_nil _ _)

theorem ends_writeSnapshots (h : Draft d k.directory root id s.disk) (pages : Nat)
    (names : List String) :
    Ends (fun r s' => r.2 = k ∧ Draft d k.directory root id s'.disk)
      ((writeSnapshots pages id names).script k) s := by
  induction names generalizing s with
  | nil => exact ends_done ⟨rfl, h⟩
  | cons name names ih =>
    rw [writeSnapshots, Activity.script_bind, Activity.script_wrapping, Activity.script_bind,
      Script.bind_assoc, Script.bind_assoc]
    refine (ends_readAll pages name).bind ?_
    rintro ⟨result, _⟩ s₁ ⟨rfl, disk⟩
    rw [← disk] at h
    cases result with
    | error e => exact ends_done ⟨rfl, h⟩
    | ok entries =>
      refine (ends_writeSnapshot h name entries).bind ?_
      rintro ⟨result, _⟩ s₂ ⟨rfl, h₂⟩
      cases result with
      | error e => exact ends_done ⟨rfl, h₂⟩
      | ok _ => exact ih h₂

/-! ## What is taken back -/

theorem provided_disk_spared {α : Type} {kind : KeeperRequest → Prop} {E : α → Site → Prop}
    {c : DiskCall} {resume : (KeeperRequest.disk c).Reply → Script keeperInterface α}
    (of_kind : kind (.disk c))
    (next : ∀ s', Placed s s' (s.disk.call c).2 →
      Provided kind E (resume (s.disk.call c).1) s') :
    Provided kind E (.ask (.disk c) resume) s := by
  refine provided_ask_spared of_kind fun spared => ?_
  obtain ⟨s', answered, placed⟩ := onDisk_of_spared spared
  rw [answer, answered]
  exact next s' placed

theorem provided_undo (fault : DiskFault)
    (h : Draft d k.directory root id
      (s.disk.call (.removeFile (Place.temporary k.directory))).2) :
    Provided KeeperRequest.Removes
      (fun r s' => r.2 = k ∧ ∀ e, r.1 = .error e → Draft d k.directory root id s'.disk)
      (Activity.script (do
        let _ ← Activity.ask (.disk (.removeFile (Place.temporary k.directory)))
        throw (.io fault) : Activity StoreError Unit) k) s := by
  rw [Activity.script_ask_bind]
  refine provided_disk_spared trivial fun s' placed => provided_done ⟨rfl, fun _ _ => ?_⟩
  rw [placed.disk]
  exact h

theorem provided_saveManifest (h : Draft d k.directory root id s.disk) (manifest : Manifest) :
    Provided KeeperRequest.Removes
      (fun r s' => r.2 = k ∧ ∀ e, r.1 = .error e → Draft d k.directory root id s'.disk)
      ((saveManifest manifest).script k) s := by
  have isTemporary : ∀ n ∈ [] ++ [Manifest.temporaryName], IsName n := by
    simpa using isName_temporary
  rw [Activity.script_saveManifest]
  rcases answer_write_cases h.leads.only isTemporary manifest.write with
    ⟨fault, s₁, answered, like⟩ | ⟨reply, part, s₁, answered, placed, takes, -⟩
  · exact provided_ask answered (provided_undo fault (like.draft h).drop)
  have written := h.drop_written takes part
  have disk : s₁.disk = s.disk.set (temporaryPlace root) (.file part) := placed.disk
  rw [← disk] at written
  refine provided_ask answered ?_
  cases reply with
  | error fault => exact provided_undo fault written
  | ok _ =>
    have leads : s₁.disk.LeadsTo k.directory root := by
      rw [placed.disk]
      exact h.leads.of_keepsDirectories (keepsDirectories_set _ takes.free)
    rcases answer_rename_cases leads.only isName_temporary isName_manifest with
      ⟨fault, s₂, answered, like⟩ | ⟨content, s₂, answered, -⟩
    · rw [← like.disk] at written
      exact provided_ask answered (provided_undo fault written)
    · exact provided_commits answered rfl

theorem provided_writeBackup (h : Draft d k.directory root id s.disk) (pages : Nat) :
    Provided KeeperRequest.Removes
      (fun r s' => r.2 = k ∧ ∀ e, r.1 = .error e → Draft d k.directory root id s'.disk)
      ((writeBackup pages id).script k) s := by
  rw [writeBackup, Activity.script_get_bind, Activity.script_disk_bind]
  rcases answer_makeDirectories_cases h.leads (isName_render id) with
    ⟨fault, s₁, answered, like⟩ | ⟨d₁, s₁, answered, placed, keeps, changes, stands, sound⟩
  · exact provided_ask answered (provided_done ⟨rfl, fun _ _ => like.draft h⟩)
  have h₁ : Draft d k.directory root id s₁.disk := by
    rw [placed.disk]
    exact h.change keeps changes stands sound
  refine provided_ask answered ?_
  show Provided _ _ (Activity.script (writeSnapshots pages id k.trackedNames >>= _) k) _
  rw [Activity.script_bind]
  refine (ends_writeSnapshots h₁ pages k.trackedNames).provided.bind ?_
  rintro ⟨result, _⟩ s₂ ⟨rfl, h₂⟩
  cases result with
  | error e => exact provided_done ⟨rfl, fun _ _ => h₂⟩
  | ok _ =>
    show Provided _ _ (Activity.script (Activity.disk (.sync _) >>= _) _) _
    rw [Activity.script_disk_bind]
    obtain ⟨reply, s₃, answered, like⟩ := answer_still_cases rfl (s₂.disk.disk_of_sync _)
    refine provided_ask answered ?_
    cases reply with
    | error fault => exact provided_done ⟨rfl, fun _ _ => like.draft h₂⟩
    | ok _ =>
      show Provided _ _ (Activity.script (Activity.ask .now >>= _) _) _
      rw [Activity.script_ask_bind]
      refine provided_ask rfl ?_
      rw [Activity.script_bind]
      refine (provided_saveManifest (like.draft h₂) _).bind ?_
      rintro ⟨result, _⟩ s₄ ⟨rfl, h₄⟩
      cases result with
      | error e => exact provided_done ⟨rfl, fun _ _ => h₄ e rfl⟩
      | ok _ => exact provided_done ⟨rfl, by rintro _ ⟨⟩⟩

/-! ## The whole backup -/

/-- A manifest that names another backup is not taken for one that names this. -/
theorem ends_isReferenced (id' : Id) (none : ∀ manifest,
      Manifest.ofFile (s.disk.fileAt (Place.manifest k.directory)) = .ok (some manifest) →
        manifest.references id'.render = false) :
    Ends (fun r s' => r = (.ok false, k) ∧ s'.disk = s.disk) ((isReferenced id').script k) s := by
  rw [isReferenced, Activity.script_outcome_bind, loadManifest, Activity.script_get_bind,
    Activity.script_ask_bind, Script.ask_bind]
  have atOnce : (DiskCall.read (Place.manifest k.directory)).atOnce = true := rfl
  rcases s.onDisk_atOnce_cases atOnce with
    ⟨fault, s₁, answered, like⟩ | ⟨s₁, answered, placed⟩
  · refine ends_ask answered ?_
    rw [Activity.script_ofExcept, Script.done_bind]
    cases fault <;> exact ends_done ⟨rfl, like.disk⟩
  · rw [call_read] at answered placed
    refine ends_ask answered ?_
    rw [Activity.script_ofExcept, Script.done_bind]
    cases read : Manifest.ofFile (s.disk.fileAt (Place.manifest k.directory)) with
    | error e => exact ends_done ⟨rfl, placed.disk⟩
    | ok found =>
      cases found with
      | none => exact ends_done ⟨rfl, placed.disk⟩
      | some manifest =>
        refine ends_done ⟨?_, placed.disk⟩
        rw [none manifest read]

/-- Clearing away never fails. -/
theorem ends_removeStale (keep : Option Id) (names : List String) :
    Ends (fun r _ => r = (.ok (), k)) ((removeStale keep names).script k) s := by
  induction names generalizing s with
  | nil => exact ends_done rfl
  | cons name names ih =>
    rw [removeStale]
    cases Id.parse? name with
    | none => exact ih
    | some id =>
      simp only
      split
      · rw [Activity.script_get_bind, Activity.script_ask_bind]
        exact ends_ask rfl ih
      · exact ih

theorem ends_clearStale (keep : Option Id) :
    Ends (fun r _ => r = (.ok (), k)) ((clearStale keep).script k) s := by
  rw [clearStale, Activity.script_get_bind, Activity.script_ask_bind]
  refine ends_ask rfl ?_
  split
  · exact ends_removeStale keep _
  · exact ends_done rfl

/-- A backup that fails leaves the disk as it was, if what it has written can be removed. -/
theorem provided_snapshot (leads : s.disk.LeadsTo k.directory root)
    (vacant : ∀ q, root ++ [s.id.render] <+: q → s.disk.node? q = none)
    (none : ∀ manifest,
      Manifest.ofFile (s.disk.fileAt (Place.manifest k.directory)) = .ok (some manifest) →
        manifest.references s.id.render = false) (pages : Nat) :
    Provided KeeperRequest.Removes
      (fun r s' => ∀ e, r.1 = .error e → Undone root s.disk s'.disk)
      ((snapshot pages).script k) s := by
  rw [snapshot, Activity.script_get_bind]
  split
  · exact provided_done fun _ _ => .inl rfl
  show Provided _ _ (Activity.script (Activity.change _ >>= _) k) _
  rw [Activity.script_change_bind, Activity.script_ask_bind]
  refine provided_ask rfl ?_
  rw [Activity.script_outcome_bind]
  have start : Draft s.disk (inPhase .backingUp k).directory root s.id s.disk := .start leads vacant
  refine (provided_writeBackup start pages).bind ?_
  rintro ⟨result, _⟩ s₁ ⟨rfl, failed⟩
  rw [Activity.script_change_bind]
  cases result with
  | ok record =>
    rw [Activity.script_bind]
    refine (ends_clearStale (some s.id)).provided.bind ?_
    rintro _ s₂ rfl
    exact provided_done (by rintro _ ⟨⟩)
  | error e =>
    have h₁ : Draft s.disk k.directory root s.id s₁.disk := failed e rfl
    rw [Activity.script_bind]
    rw [← h₁.fileAt_manifest leads] at none
    refine (ends_isReferenced (k := inPhase .ready k) s.id none).provided.bind ?_
    rintro _ s₂ ⟨rfl, disk⟩
    rw [← disk] at h₁
    simp only [Bool.false_eq_true, not_false_eq_true, if_true]
    rw [Activity.script_get_bind, Activity.script_ask_bind]
    refine provided_disk_spared trivial fun s' placed => provided_done fun _ _ => ?_
    rw [placed.disk]
    exact h₁.undone vacant

end Site

/-! ## Standpoints -/

section Standpoints

variable {d d' : Disk} {root : Location}

theorem Undone.leads {dir : Path} (h : Undone root d d') (leads : d.LeadsTo dir root) :
    d'.LeadsTo dir root := by
  rcases h with rfl | ⟨rfl, content, stands⟩
  · exact leads
  · exact leads.of_keepsDirectories (keepsDirectories_erase (by rw [stands]; exact nofun))

/-- What is left under the temporary name does not matter to a backup. -/
theorem Undone.sameBackup (h : Undone root d d') (latest : Option BackupRecord) :
    SameBackup root latest d d' := by
  rcases h with rfl | ⟨rfl, -⟩
  · exact .refl _
  · refine sameBackup_of_changesOnly (changesOnly_erase d _) temporary_ne_manifest ?_
    exact fun record _ => (ne_of_parse? (Id.parse?_render record.id)).2.symm

/-- A directory opens with what it opened with before. -/
theorem Undone.opensWith (h : Undone root d d') {path : String}
    (leads : d.LeadsTo (Path.ofDirectory path) root) (format : Format) (batchSize : Nat) :
    opensWith path format batchSize d' = opensWith path format batchSize d := by
  cases sound : Path.fault? (Path.ofDirectory path) with
  | some fault =>
    rw [opensWith_of_fault sound, opensWith_of_fault sound]
  | none =>
    have leads' := h.leads leads
    obtain ⟨contents, restores⟩ := restores_exists d (Path.ofDirectory path) format
    have restores' := restores.congr leads leads' h.sameBackup
    rw [opensWith_of_restores batchSize (makeDirectories_of_leadsTo leads' sound) restores',
      opensWith_of_restores batchSize (makeDirectories_of_leadsTo leads sound) restores]

end Standpoints

/-- A backup that fails before the manifest is replaced leaves everything as it was, and so does one
that is asked of a closed keeper. -/
theorem failed_snapshot_undone {p : Standpoint} (h : Reachable p) (pages : Nat) :
    let failing := (Keeper.snapshot pages).runOn p
    (p.keeper.phase = .closed → failing = (.error (.invalidOperation .backupClosed), p)) ∧
      ∀ root e, p.keeper.phase ≠ .closed → p.site.disk.LeadsTo p.keeper.directory root →
        (∀ q, root ++ [p.site.id.render] <+: q → p.site.disk.node? q = none) →
        (∀ manifest, Manifest.ofFile (p.site.disk.fileAt (Place.manifest p.keeper.directory)) =
          .ok (some manifest) → manifest.references p.site.id.render = false) →
        (∀ r ∈ struck ((Keeper.snapshot pages).script p.keeper) p.site, ¬r.Removes) →
        moves ((Keeper.snapshot pages).script p.keeper) p.site = false → failing.1 = .error e →
        failing.2.keeper = { p.keeper with phase := .ready } ∧
          failing.2.site.engine = p.site.engine ∧ Undone root p.site.disk failing.2.site.disk ∧
          ∀ format batchSize, opensWith p.keeper.path format batchSize failing.2.site.disk =
            opensWith p.keeper.path format batchSize p.site.disk := by
  obtain ⟨k, s⟩ := p
  constructor
  · intro closed
    rw [Activity.runOn, Keeper.snapshot, Activity.script_get_bind, if_pos closed]
    rfl
  · intro root e running leads vacant none spared still failed
    have opens : ∀ name ∈ k.trackedNames, ∀ e, e = s.engine → (e.openPartition name).2 = s.engine := by
      rintro name tracked _ rfl
      exact h.known.opens (· = s.engine) name tracked rfl
    obtain ⟨keeper, engine⟩ :=
      Keeper.ends_snapshot (k := k) (s := s) (I := (· = s.engine)) pages rfl opens
    rw [if_neg running] at keeper
    have undone := provided_snapshot leads vacant none pages spared still e failed
    exact ⟨keeper, engine, undone, undone.opensWith leads⟩

/-- A partition with an entry is backed up beside a file that was left behind, and three bytes are
written of the new manifest when that fails. -/
theorem failed_snapshot_undone_part :
    let disk := Disk.empty.set ["b"] .directory |>.set ["b", "meta.json.tmp"] (.file [7])
    let calm : Occasion := ⟨default, default, [], [], []⟩
    let failing : Occasion :=
      ⟨⟨5⟩, default, [], [], [none, none, none, some ⟨.device, some 3, []⟩]⟩
    let p := ((Standpoint.step (.put 0 [1] [2], calm)
      (Standpoint.step (.openPartition "a", calm) (opening "b" .cbor 1 disk).2).2).2).meet failing
    let failed := (Keeper.snapshot 2).runOn p
    let manifest := (Manifest.single ⟨⟨5⟩, .cbor, default, ["a"]⟩).write
    struck ((Keeper.snapshot 2).script p.keeper) p.site =
        [.disk (.write ["b", "meta.json.tmp"] manifest)] ∧
      failed.1 = .error (.io .device) ∧ Undone ["b"] p.site.disk failed.2.site.disk ∧
      failed.2.site.disk.node? ["b", "meta.json.tmp"] = none ∧
      failed.2.site.engine.contents = .ofList [("a", .ofList [([1], [2])])] := by
  intro disk calm failing p failed manifest
  have reachable : Reachable p :=
    .elsewhere rfl (.step _ (.step _ (.created rfl (by decide +kernel))))
  have struck : struck ((Keeper.snapshot 2).script p.keeper) p.site =
      [.disk (.write ["b", "meta.json.tmp"] manifest)] := by
    decide +kernel
  have still : moves ((Keeper.snapshot 2).script p.keeper) p.site = false := by decide +kernel
  have error : failed.1 = .error (.io .device) := by decide +kernel
  have gone : failed.2.site.disk.node? ["b", "meta.json.tmp"] = none := by decide +kernel
  have contents : p.site.engine.contents = .ofList [("a", .ofList [([1], [2])])] := by
    decide +kernel
  have running : p.keeper.phase ≠ .closed := by decide +kernel
  have leads : p.site.disk.walk [] .directory p.keeper.directory = .ok (["b"], .directory) := by
    decide +kernel
  have apart : ∀ node ∈ p.site.disk.nodes.toList, ¬["b"] ++ [p.site.id.render] <+: node.1 := by
    decide +kernel
  have missing : p.site.disk.fileAt (Place.manifest p.keeper.directory) = .error .missing := by
    decide +kernel
  clear_value p
  have vacant : ∀ q, ["b"] ++ [p.site.id.render] <+: q → p.site.disk.node? q = none :=
    fun q below => OrderedMap.get?_eq_none_iff.2 fun node mem => apart _ mem below
  have none : ∀ manifest,
      Manifest.ofFile (p.site.disk.fileAt (Place.manifest p.keeper.directory)) =
        .ok (some manifest) → manifest.references p.site.id.render = false := by
    rw [missing]
    exact nofun
  have spared : ∀ r ∈ Site.struck ((Keeper.snapshot 2).script p.keeper) p.site, ¬r.Removes := by
    rw [struck]
    exact List.forall_mem_singleton.2 nofun
  obtain ⟨-, engine, undone, -⟩ :=
    (failed_snapshot_undone reachable 2).2 ["b"] _ running leads vacant none spared still
      error
  refine ⟨struck, error, undone, gone, ?_⟩
  rw [engine, contents]

end SnapshotStore
