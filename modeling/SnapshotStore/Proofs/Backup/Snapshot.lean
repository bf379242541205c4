import SnapshotStore.Proofs.Backup.Pages
import SnapshotStore.Proofs.Backup.Requests
import SnapshotStore.Proofs.Backup.Restore
import SnapshotStore.Proofs.Manifest
import SnapshotStore.Proofs.Snapshot.Format

/-!
Taking a backup, request by request. Up to the replacement of the manifest the directory recovers
the backup before it, and from then on the new one (`upholds_snapshot`), whatever fails on the way.
-/

namespace SnapshotStore

open Keeper OrderedMap Disk

/-- The entries that a keeper tracks, by name. -/
def Keeper.holdings (k : Keeper) (e : Engine) : OrderedMap String (OrderedMap Bytes Bytes) :=
  k.tracked.map fun name _ => e.entriesOf name

/-- What the files of a backup are to spell. -/
def Keeper.files (k : Keeper) (e : Engine) : List (String × List Entry) :=
  k.trackedNames.map fun name => (name, (e.entriesOf name).toList)

/-- The record of the backup that a keeper takes on a site. -/
def Keeper.record (k : Keeper) (s : Site) : BackupRecord := ⟨s.id, k.format, s.now, k.trackedNames⟩

/-- The files of a backup picture what the keeper tracks. -/
theorem pictured_files (k : Keeper) (e : Engine) : pictured (k.files e) = k.holdings e := by
  rw [← ofList_toList (k.holdings e), pictured, files, List.map_map, trackedNames, keys,
    List.map_map]
  refine congrArg ofList (List.map_congr_left fun b _ => ?_)
  show (b.1, ofList (e.entriesOf b.1).toList) = _
  rw [ofList_toList]

namespace Site

/-- Whether a keeper can take a backup on a site: its path leads to a directory that holds a backup,
or none, under another identifier; the engine is sound; and the time and the entries that it tracks
can be written and read back. -/
structure Prepared (k : Keeper) (s : Site) (root : Location) (latest : Option BackupRecord)
    (files : List (String × List Entry)) : Prop where
  leads : s.disk.LeadsTo k.directory root
  holds : Holds s.disk k.directory k.format latest files
  unused : ∀ record, latest = some record → record.id ≠ s.id
  sound : s.engine.Sound
  plain : s.now.IsPlain
  fits : ∀ file ∈ k.files s.engine, (k.format.write file.2).length < 2 ^ 64

section Taking

variable {kind : KeeperRequest → Prop} {k : Keeper} {s₀ s s' : Site} {root : Location}
  {latest : Option BackupRecord} {files : List (String × List Entry)}

/-- What the disk recovers while a backup is taken, before and after the manifest is replaced. -/
def Taking (k : Keeper) (s₀ : Site) (root : Location) (latest : Option BackupRecord)
    (files : List (String × List Entry)) (moved : Bool) (s : Site) : Prop :=
  s₀.disk.SameOutside root s.disk ∧ s.engine.Sound ∧
    Recovers s.disk k.directory root k.format (if moved then some (k.record s₀) else latest)
      (if moved then k.files s₀.engine else files)

/-- A backup that is under way: the manifest is still the one before it. -/
structure Underway (k : Keeper) (s₀ : Site) (root : Location) (latest : Option BackupRecord)
    (files : List (String × List Entry)) (s : Site) : Prop where
  leads : s.disk.LeadsTo k.directory root
  holds : Holds s.disk k.directory k.format latest files
  outside : s₀.disk.SameOutside root s.disk
  sound : s.engine.Sound
  entries : ∀ name, s.engine.entriesOf name = s₀.engine.entriesOf name
  id : s.id = s₀.id
  now : s.now = s₀.now

theorem Prepared.underway (h : Prepared k s₀ root latest files) :
    Underway k s₀ root latest files s₀ :=
  ⟨h.leads, h.holds, .refl _ _, h.sound, fun _ => rfl, rfl, rfl⟩

theorem Underway.taking (h : Underway k s₀ root latest files s) :
    Taking k s₀ root latest files false s :=
  ⟨h.outside, h.sound, h.holds.recovers h.leads⟩

theorem Underway.like (h : Underway k s₀ root latest files s) (like : Like s s') :
    Underway k s₀ root latest files s' := by
  obtain ⟨leads, holds, outside, sound, entries, id, now⟩ := h
  refine ⟨?_, ?_, ?_, ?_, ?_, like.id.trans id, like.now.trans now⟩
  · exact like.disk ▸ leads
  · exact like.disk ▸ holds
  · exact like.disk ▸ outside
  · exact like.engine ▸ sound
  · exact like.engine ▸ entries

/-- The files that are written. -/
def Written (k : Keeper) (s₀ : Site) (done : List String) (s : Site) : Prop :=
  ∀ name ∈ done, s.disk.fileAt (Place.snapshot k.directory s₀.id name) =
    .ok (k.format.write (s₀.engine.entriesOf name).toList)

/-- Opening the partition of a name leaves the entries of all names. -/
theorem Underway.opened (h : Underway k s₀ root latest files s) {name : String}
    (engaged : Engaged s s' (s.engine.openPartition name).2) :
    Underway k s₀ root latest files s' ∧ ∀ id, (s.engine.openPartition name).1 = .ok id →
      s'.engine.registered.get? name = some id := by
  have other : s'.disk.LeadsTo k.directory root ∧
      Holds s'.disk k.directory k.format latest files ∧ s₀.disk.SameOutside root s'.disk := by
    rw [engaged.disk]
    exact ⟨h.leads, h.holds, h.outside⟩
  obtain ⟨leads, holds, outside⟩ := other
  cases closed : s.engine.isClosed with
  | true =>
    have refused := Engine.openPartition_closed closed name
    rw [refused] at engaged
    have like := engaged.like
    refine ⟨h.like like, ?_⟩
    rw [refused]
    rintro _ ⟨⟩
  | false =>
    obtain ⟨id, e, opened, sound, _, registered, contents⟩ :=
      Engine.openPartition_open h.sound closed name
    rw [opened] at engaged ⊢
    have engine : s'.engine = e := engaged.engine
    refine ⟨⟨leads, holds, outside, engine ▸ sound, ?_, engaged.id.trans h.id,
      engaged.now.trans h.now⟩, ?_⟩
    · intro other
      rw [← h.entries other, engine, Engine.entriesOf, contents, get?_insert]
      split
      · rename_i same
        rw [same]
        rfl
      · rfl
    · rintro _ ⟨⟩
      rw [engine]
      exact registered

/-- A change of the disk that does not touch the backup before. -/
theorem Underway.placed (h : Underway k s₀ root latest files s) {d : Disk}
    (placed : Placed s s' d) (keeps : KeepsDirectories s.disk d) {name : String}
    {rest : List String} (changes : ChangesOnly s.disk d (root ++ name :: rest))
    (file : name ≠ Manifest.fileName)
    (other : ∀ record, latest = some record → name ≠ record.id.render) :
    Underway k s₀ root latest files s' := by
  obtain ⟨engine, rfl, id, now⟩ := placed
  have leads := h.leads.of_keepsDirectories keeps
  refine ⟨leads, h.holds.congr h.leads leads (sameBackup_of_changesOnly changes file other), ?_,
    engine ▸ h.sound, engine ▸ h.entries, id.trans h.id, now.trans h.now⟩
  exact h.outside.trans changes.sameOutside

theorem Written.placed {done : List String} (written : Written k s₀ done s) {d : Disk}
    (placed : Placed s s' d) (leads : s.disk.LeadsTo k.directory root)
    (keeps : KeepsDirectories s.disk d) {changed : List String}
    (changes : ChangesOnly s.disk d (root ++ changed))
    (apart : ∀ name ∈ done, ¬changed <+: [s₀.id.render] ++ [FileName.snapshot name]) :
    Written k s₀ done s' := by
  obtain ⟨_, rfl, _, _⟩ := placed
  intro name mem
  rw [← written name mem, snapshot_eq]
  exact fileAt_of_changesOnly leads (leads.of_keepsDirectories keeps)
    (fun _ => isName_of_mem_snapshot) changes (apart name mem)

/-- How the writing of files ends: the manifest is not replaced, and unless something failed the
files are there. -/
structure WritingEnds (k : Keeper) (s₀ : Site) (root : Location) (latest : Option BackupRecord)
    (files : List (String × List Entry)) (done : List String) (r : Except StoreError Unit × Keeper)
    (moved : Bool) (s : Site) : Prop where
  keeper : r.2 = k
  still : moved = false
  underway : Underway k s₀ root latest files s
  written : r.1 = .ok () → Written k s₀ done s

variable (unused : ∀ record, latest = some record → record.id ≠ s₀.id)

include unused in
theorem upholds_writeSnapshot (h : Underway k s₀ root latest files s) {done : List String}
    (written : Written k s₀ done s) (name : String) :
    Upholds kind (Taking k s₀ root latest files)
      (WritingEnds k s₀ root latest files (done ++ [name]))
      ((writeSnapshot s₀.id name (s₀.engine.entriesOf name).toList).script k) false s := by
  have other : ∀ record, latest = some record → s₀.id.render ≠ record.id.render :=
    fun record eq same => unused record eq (Id.render_injective same).symm
  have isName : ∀ n ∈ [s₀.id.render] ++ [FileName.snapshot name], IsName n :=
    fun _ => isName_of_mem_snapshot
  rw [writeSnapshot, Activity.script_get_bind, Activity.script_ask_bind]
  have like := s.like_onCodec
  cases answered : s.onCodec with | mk reply s₁ =>
  rw [answered] at like
  replace like : Like s s₁ := like
  refine upholds_ask_still h.taking answered rfl ?_
  rw [Activity.script_ofExcept_bind]
  have h₁ := h.like like
  cases reply with
  | error e => exact upholds_done h₁.taking ⟨rfl, rfl, h₁, by rintro ⟨⟩⟩
  | ok _ =>
    have written₁ : Written k s₀ done s₁ := by
      rw [Written, like.disk]
      exact written
    dsimp only
    rw [Activity.script_disk, snapshot_eq]
    rcases answer_write_cases h₁.leads.only isName
        (k.format.write (s₀.engine.entriesOf name).toList) with
      ⟨fault, s₂, answered, like⟩ | ⟨reply, part, s₂, answered, placed, takes, whole⟩
    · refine upholds_ask_still h₁.taking answered rfl ?_
      exact upholds_done (h₁.like like).taking ⟨rfl, rfl, h₁.like like, by rintro ⟨⟩⟩
    have keeps := keepsDirectories_set (.file part) takes.free
    have changes := changesOnly_set s₁.disk (root ++ ([s₀.id.render] ++ [FileName.snapshot name]))
      (.file part)
    have h₂ := h₁.placed placed keeps changes (ne_of_parse? (Id.parse?_render s₀.id)).1 other
    refine upholds_ask_still h₁.taking answered rfl ?_
    cases reply with
    | error fault => exact upholds_done h₂.taking ⟨rfl, rfl, h₂, by rintro ⟨⟩⟩
    | ok _ =>
      obtain rfl := whole rfl
      refine upholds_done h₂.taking ⟨rfl, rfl, h₂, fun _ => ?_⟩
      intro entity mem
      by_cases same : entity = name
      · rw [same, placed.disk, snapshot_eq]
        exact fileAt_of_find (find_set isName takes _)
      · have before : entity ∈ done := by simpa [same] using mem
        rw [← written₁ entity before, placed.disk, snapshot_eq]
        refine fileAt_of_changesOnly h₁.leads (h₁.leads.of_keepsDirectories keeps)
          (fun _ => isName_of_mem_snapshot) changes ?_
        intro below
        have file := (List.cons_prefix_cons.1 below).2
        exact same (FileName.snapshot_injective (List.cons_prefix_cons.1 file).1).symm

/-- The entries of a partition are read as they were when the backup began. -/
theorem upholds_readAll (h : Underway k s₀ root latest files s) {done : List String}
    (written : Written k s₀ done s) (pages : Nat) (name : String) :
    Upholds kind (Taking k s₀ root latest files)
      (fun r m s' => r.2 = k ∧ m = false ∧ Underway k s₀ root latest files s' ∧
        Written k s₀ done s' ∧
        ∀ entries, r.1 = .ok entries → entries = (s₀.engine.entriesOf name).toList)
      ((readAll pages name).script k) false s := by
  rw [readAll, Activity.script_get_bind, Activity.script_ask_bind]
  rcases s.onEngine_cases fun e => e.openPartition name with
    ⟨e, s₁, answered, like⟩ | ⟨s₁, answered, engaged⟩
  · refine upholds_ask_still h.taking answered rfl ?_
    have h₁ := h.like like
    have written₁ : Written k s₀ done s₁ := by
      rw [Written, like.disk]
      exact written
    exact upholds_done h₁.taking ⟨rfl, rfl, h₁, written₁, by rintro _ ⟨⟩⟩
  · obtain ⟨h₁, registered⟩ := h.opened engaged
    have written₁ : Written k s₀ done s₁ := by
      rw [Written, engaged.disk]
      exact written
    refine upholds_ask_still h.taking answered rfl ?_
    rw [Activity.script_ofExcept_bind]
    cases opened : (s.engine.openPartition name).1 with
    | error e => exact upholds_done h₁.taking ⟨rfl, rfl, h₁, written₁, by rintro _ ⟨⟩⟩
    | ok partition =>
      have entries : (s₁.engine.partition partition).entries = s₀.engine.entriesOf name := by
        rw [← h₁.entries name, Engine.entriesOf_registered (registered partition opened)]
      refine (upholds_readPages k partition k.batchSize pages none
        fun s₂ like => (h₁.like like).taking).mono ?_
      rintro r m s₂ _ ⟨rfl, rfl, like, read⟩
      refine ⟨rfl, rfl, h₁.like like, ?_, ?_⟩
      · rw [Written, like.disk]
        exact written₁
      · intro es ended
        rw [read es ended, entries]
        rfl

include unused in
theorem upholds_writeSnapshots (h : Underway k s₀ root latest files s) {done : List String}
    (written : Written k s₀ done s) (pages : Nat) (names : List String) :
    Upholds kind (Taking k s₀ root latest files)
      (WritingEnds k s₀ root latest files (done ++ names))
      ((writeSnapshots pages s₀.id names).script k) false s := by
  induction names generalizing done s with
  | nil =>
    refine upholds_done h.taking ⟨rfl, rfl, h, fun _ => ?_⟩
    rw [List.append_nil]
    exact written
  | cons name names ih =>
    rw [writeSnapshots]
    have one : Upholds kind (Taking k s₀ root latest files)
        (WritingEnds k s₀ root latest files (done ++ [name]))
        (Activity.script (do
          let entries ← readAll pages name
          writeSnapshot s₀.id name entries) k) false s := by
      refine upholds_bind (upholds_readAll h written pages name) ?_ ?_
      · rintro entries k' m s₁ _ ⟨rfl, rfl, h₁, written₁, read⟩
        rw [read entries rfl]
        exact upholds_writeSnapshot unused h₁ written₁ name
      · rintro e k' m s₁ _ ⟨rfl, rfl, h₁, _⟩
        exact ⟨rfl, rfl, h₁, by rintro ⟨⟩⟩
    have wrapped : Upholds kind (Taking k s₀ root latest files)
        (WritingEnds k s₀ root latest files (done ++ [name]))
        ((Activity.wrapping (StoreError.backupFailed name) (do
          let entries ← readAll pages name
          writeSnapshot s₀.id name entries)).script k) false s := by
      apply upholds_wrapping one
      rintro r k' m s₁ ⟨rfl, rfl, h₁, written₁⟩
      refine ⟨rfl, rfl, h₁, fun ok => written₁ ?_⟩
      cases r with
      | ok _ => rfl
      | error e => cases ok
    refine upholds_bind wrapped ?_ ?_
    · rintro _ k' m s₁ _ ⟨rfl, rfl, h₁, written₁⟩
      have rest := ih h₁ (written₁ rfl)
      rw [List.append_assoc] at rest
      exact rest
    · rintro e k' m s₁ _ ⟨rfl, rfl, h₁, _⟩
      exact ⟨rfl, rfl, h₁, by rintro ⟨⟩⟩

/-! ## The manifest -/

/-- A backup that is complete: the manifest names it. -/
structure Committed (k : Keeper) (s₀ : Site) (root : Location) (s : Site) : Prop where
  leads : s.disk.LeadsTo k.directory root
  holds : Holds s.disk k.directory k.format (some (k.record s₀)) (k.files s₀.engine)
  outside : s₀.disk.SameOutside root s.disk
  sound : s.engine.Sound

theorem Committed.taking (h : Committed k s₀ root s) : Taking k s₀ root latest files true s :=
  ⟨h.outside, h.sound, h.holds.recovers h.leads⟩

/-- Whether a keeper makes its directory last without fail, as long as no request of a kind meets a
fault. -/
def Lasts (kind : KeeperRequest → Prop) (k : Keeper) : Prop :=
  kind (.disk (.sync k.directory)) ∧ k.directory ≠ []

/-- How an activity ends that is to replace the manifest: if it has succeeded, the manifest names
the new backup, and if it has failed, the one before, unless only the making last has failed. -/
structure CommitEnds {α : Type} (kind : KeeperRequest → Prop) (k : Keeper) (s₀ : Site)
    (root : Location) (latest : Option BackupRecord) (files : List (String × List Entry))
    (r : Except StoreError α × Keeper) (moved : Bool) (s : Site) : Prop where
  keeper : r.2 = k
  ok : ∀ a, r.1 = .ok a → moved = true ∧ Committed k s₀ root s
  error : ∀ e, r.1 = .error e → moved = false ∧ Underway k s₀ root latest files s ∨
    moved = true ∧ Committed k s₀ root s ∧ ¬Lasts kind k

/-- The new manifest takes the place of the one before when its file is moved there. -/
theorem committed_of_renamed (prepared : Prepared k s₀ root latest files)
    (h : Underway k s₀ root latest files s) (written : Written k s₀ k.trackedNames s)
    (found : s.disk.find (k.directory ++ [Manifest.temporaryName]) =
      .ok (root ++ [Manifest.temporaryName], .file (Manifest.single (k.record s₀)).write))
    (takes : s.disk.Takes k.directory root [] Manifest.fileName)
    (placed : Placed s s' ((s.disk.erase (root ++ [Manifest.temporaryName])).set
      (root ++ [Manifest.fileName]) (.file (Manifest.single (k.record s₀)).write))) :
    Committed k s₀ root s' := by
  obtain ⟨engine, disk, -, -⟩ := placed
  have isName : ∀ n ∈ [] ++ [Manifest.fileName], IsName n := by simpa using isName_manifest
  have stands : s.disk.node? (root ++ [Manifest.temporaryName]) =
      some (.file (Manifest.single (k.record s₀)).write) :=
    (of_find (by simpa using isName_temporary) h.leads.only found).2.2.2.2 (List.cons_ne_nil _ _)
  -- The file under the temporary name goes, and leaves the place of the manifest as it was.
  have changes := changesOnly_erase s.disk (root ++ [Manifest.temporaryName])
  have keeps : KeepsDirectories s.disk (s.disk.erase (root ++ [Manifest.temporaryName])) :=
    keepsDirectories_erase (by rw [stands]; rintro ⟨⟩)
  have takes' : (s.disk.erase (root ++ [Manifest.temporaryName])).Takes k.directory root []
      Manifest.fileName := by
    refine ⟨takes.leads.of_keepsDirectories keeps, takes.storable, ?_, ?_⟩
    · rw [walk_nil, List.append_nil]
    · rw [node?_erase]
      split
      · rintro ⟨⟩
      · exact takes.free
  -- The manifest comes, and leaves all else.
  have changes' := changesOnly_set (s.disk.erase (root ++ [Manifest.temporaryName]))
    (root ++ [Manifest.fileName]) (.file (Manifest.single (k.record s₀)).write)
  have keeps' := keepsDirectories_set (.file (Manifest.single (k.record s₀)).write) takes'.free
  have read := fileAt_of_find
    (find_set isName takes' (Manifest.single (k.record s₀)).write)
  simp only [List.nil_append] at keeps' read
  rw [← disk] at changes' keeps' read
  have leads := takes'.leads.of_keepsDirectories keeps'
  have last : (Manifest.single (k.record s₀)).latest? = some (k.record s₀) := rfl
  refine ⟨leads, .backup ?_ last rfl ?_ ?_, ?_, engine ▸ h.sound⟩
  · rw [Place.manifest, read, Manifest.ofFile, Manifest.read_write]
    · rfl
    · intro record mem
      rw [List.mem_singleton.1 mem]
      exact prepared.plain.shown
  · rw [Keeper.files, List.map_map]
    exact List.map_id _
  · intro file mem
    obtain ⟨name, tracked, rfl⟩ := List.mem_map.1 mem
    obtain ⟨manifest, temporary⟩ := ne_of_parse? (Id.parse?_render s₀.id)
    have kept : s'.disk.fileAt (Place.snapshot k.directory s₀.id name) =
        s.disk.fileAt (Place.snapshot k.directory s₀.id name) := by
      rw [snapshot_eq]
      refine (fileAt_of_changesOnly takes'.leads leads (fun _ => isName_of_mem_snapshot) changes'
        ?_).trans (fileAt_of_changesOnly h.leads takes'.leads (fun _ => isName_of_mem_snapshot)
          changes ?_)
      · exact fun below => manifest (List.cons_prefix_cons.1 below).1.symm
      · exact fun below => temporary (List.cons_prefix_cons.1 below).1.symm
    show k.format.ofFile (s'.disk.fileAt (Place.snapshot k.directory s₀.id name)) = _
    rw [kept, written name tracked]
    exact Format.read_write k.format (prepared.fits _ mem)
  · exact (h.outside.trans changes.sameOutside).trans changes'.sameOutside

theorem Committed.like (h : Committed k s₀ root s) (like : Like s s') : Committed k s₀ root s' := by
  obtain ⟨leads, holds, outside, sound⟩ := h
  exact ⟨like.disk ▸ leads, like.disk ▸ holds, like.disk ▸ outside, like.engine ▸ sound⟩

/-- The directory is made last once the manifest is in its place. -/
theorem upholds_sync (h : Committed k s₀ root s) :
    Upholds kind (Taking k s₀ root latest files) (CommitEnds kind k s₀ root latest files)
      ((Activity.disk (.sync k.directory)).script k) true s := by
  rw [Activity.script_disk]
  by_cases lasts : Lasts kind k
  · refine upholds_disk_spared h.taking lasts.1 rfl fun s₁ placed => ?_
    rw [disk_of_sync] at placed
    have sound := fault?_append_left h.holds.sound
    rw [call, find_eq_walk sound lasts.2, h.leads]
    have h₁ := h.like placed.like
    exact upholds_done h₁.taking ⟨rfl, fun _ _ => ⟨rfl, h₁⟩, by rintro _ ⟨⟩⟩
  · obtain ⟨reply, s₁, answered, like⟩ := answer_still_cases rfl (s.disk.disk_of_sync k.directory)
    have h₁ := h.like like
    refine upholds_ask_still h.taking answered rfl (upholds_done h₁.taking ⟨rfl, ?_, ?_⟩)
    · exact fun _ _ => ⟨rfl, h₁⟩
    · exact fun _ _ => .inr ⟨rfl, h₁, lasts⟩

theorem temporary_ne_render (id : Id) : Manifest.temporaryName ≠ id.render :=
  (ne_of_parse? (Id.parse?_render id)).2.symm

/-- What is left of a manifest that did not get to its place is removed. -/
theorem upholds_undo (h : Underway k s₀ root latest files s) (fault : DiskFault) :
    Upholds kind (Taking k s₀ root latest files) (CommitEnds kind k s₀ root latest files)
      (Activity.script (α := Unit) (do
        let _ ← Activity.ask (.disk (.removeFile (Place.temporary k.directory)))
        throw (.io fault)) k) false s := by
  rw [Activity.script_ask_bind]
  rcases answer_removeFile_cases h.leads.only isName_temporary with
    ⟨_, s₁, answered, like⟩ | ⟨content, s₁, answered, placed, stands⟩
  · refine upholds_ask_still h.taking answered rfl ?_
    have h₁ := h.like like
    exact upholds_done h₁.taking ⟨rfl, by rintro _ ⟨⟩, fun _ _ => .inl ⟨rfl, h₁⟩⟩
  · refine upholds_ask_still h.taking answered rfl ?_
    have h₁ := h.placed placed (keepsDirectories_erase (by rw [stands]; rintro ⟨⟩))
      (changesOnly_erase _ _) temporary_ne_manifest fun record _ => temporary_ne_render record.id
    exact upholds_done h₁.taking ⟨rfl, by rintro _ ⟨⟩, fun _ _ => .inl ⟨rfl, h₁⟩⟩

theorem upholds_saveManifest (prepared : Prepared k s₀ root latest files)
    (h : Underway k s₀ root latest files s) (written : Written k s₀ k.trackedNames s) :
    Upholds kind (Taking k s₀ root latest files) (CommitEnds kind k s₀ root latest files)
      ((saveManifest (.single (k.record s₀))).script k) false s := by
  have isTemporary : ∀ n ∈ [] ++ [Manifest.temporaryName], IsName n := by
    simpa using isName_temporary
  rw [Activity.script_saveManifest]
  rcases answer_write_cases h.leads.only isTemporary (Manifest.single (k.record s₀)).write with
    ⟨fault, s₁, answered, like⟩ | ⟨reply, part, s₁, answered, placed, takes, whole⟩
  · refine upholds_ask_still h.taking answered rfl ?_
    exact upholds_undo (h.like like) fault
  have keeps := keepsDirectories_set (.file part) takes.free
  have changes := changesOnly_set s.disk (root ++ [Manifest.temporaryName]) (.file part)
  have h₁ := h.placed placed keeps changes temporary_ne_manifest fun record _ =>
    temporary_ne_render record.id
  refine upholds_ask_still h.taking answered rfl ?_
  cases reply with
  | error fault => exact upholds_undo h₁ fault
  | ok _ =>
    have same : (Manifest.single (k.record s₀)).write = part := (whole rfl).symm
    subst same
    have found := find_set isTemporary takes (Manifest.single (k.record s₀)).write
    have written₁ := written.placed placed h.leads keeps changes fun name _ below =>
      temporary_ne_render s₀.id (List.cons_prefix_cons.1 below).1
    simp only [List.nil_append] at found placed
    rw [← placed.disk] at found
    rcases answer_rename_cases h₁.leads.only isName_temporary isName_manifest with
      ⟨fault, s₂, answered, like⟩ | ⟨content, s₂, answered, placed', found', takes'⟩
    · refine upholds_ask_still h₁.taking answered rfl ?_
      exact upholds_undo (h₁.like like) fault
    · rw [found] at found'
      simp only [Except.ok.injEq, Prod.mk.injEq, DiskNode.file.injEq, true_and] at found'
      subst found'
      have committed := committed_of_renamed prepared h₁ written₁ found takes' placed'
      exact upholds_ask h₁.taking answered (upholds_sync committed)

theorem upholds_writeBackup (prepared : Prepared k s₀ root latest files)
    (h : Underway k s₀ root latest files s) (pages : Nat) :
    Upholds kind (Taking k s₀ root latest files) (CommitEnds kind k s₀ root latest files)
      ((writeBackup pages s₀.id).script k) false s := by
  rw [writeBackup, Activity.script_get_bind, Activity.script_disk_bind]
  rcases answer_makeDirectories_cases h.leads (isName_render s₀.id) with
    ⟨fault, s₁, answered, like⟩ | ⟨d, s₁, answered, placed, keeps, changes, -, -⟩
  · refine upholds_ask_still h.taking answered rfl ?_
    exact upholds_done (h.like like).taking
      ⟨rfl, by rintro _ ⟨⟩, fun _ _ => .inl ⟨rfl, h.like like⟩⟩
  have other : ∀ record, latest = some record → s₀.id.render ≠ record.id.render :=
    fun record eq same => prepared.unused record eq (Id.render_injective same).symm
  have h₁ := h.placed placed keeps changes (ne_of_parse? (Id.parse?_render s₀.id)).1 other
  have written₁ : Written k s₀ [] s₁ := fun _ mem => absurd mem List.not_mem_nil
  refine upholds_ask_still h.taking answered rfl ?_
  refine upholds_bind (upholds_writeSnapshots prepared.unused h₁ written₁ pages k.trackedNames) ?_ ?_
  · rintro _ k' m s₂ _ ⟨rfl, rfl, h₂, written₂⟩
    rw [Activity.script_disk_bind]
    obtain ⟨reply, s₃, answered, like⟩ :=
      answer_still_cases rfl (s₂.disk.disk_of_sync (k'.backupPath s₀.id))
    have h₃ := h₂.like like
    have written₃ : Written k' s₀ k'.trackedNames s₃ := by
      rw [Written, like.disk]
      exact written₂ rfl
    refine upholds_ask_still h₂.taking answered rfl ?_
    cases reply with
    | error fault =>
      exact upholds_done h₃.taking ⟨rfl, by rintro _ ⟨⟩, fun _ _ => .inl ⟨rfl, h₃⟩⟩
    | ok _ =>
      dsimp only
      rw [Activity.script_ask_bind]
      refine upholds_ask_still h₃.taking rfl rfl ?_
      rw [h₃.now]
      refine upholds_bind (upholds_saveManifest prepared h₃ written₃) ?_ ?_
      · rintro _ k' m s₄ holds ⟨rfl, ok, _⟩
        exact upholds_done holds ⟨rfl, fun _ _ => ok () rfl, by rintro _ ⟨⟩⟩
      · rintro e k' m s₄ _ ⟨rfl, _, error⟩
        exact ⟨rfl, by rintro _ ⟨⟩, fun _ _ => error e rfl⟩
  · rintro e k' m s₂ _ ⟨rfl, rfl, h₂, _⟩
    exact ⟨rfl, by rintro _ ⟨⟩, fun _ _ => .inl ⟨rfl, h₂⟩⟩

/-! ## Clearing away -/

/-- A directory that holds neither backup is removed, as a whole or in part. -/
theorem Taking.removed {moved : Bool} (h : Taking k s₀ root latest files moved s) {d : Disk}
    (placed : Placed s s' d) {name : String}
    (within : d.Within s.disk) (changes : ChangesOnly s.disk d (root ++ [name]))
    (file : name ≠ Manifest.fileName)
    (other : ∀ record, (if moved then some (k.record s₀) else latest) = some record →
      name ≠ record.id.render) :
    Taking k s₀ root latest files moved s' := by
  obtain ⟨outside, sound, recovers⟩ := h
  obtain ⟨engine, disk, -, -⟩ := placed
  rw [Taking, engine, disk]
  exact ⟨outside.trans changes.sameOutside, sound,
    recovers.lose within (sameBackup_of_changesOnly changes file other)⟩

theorem Taking.like {moved : Bool} (h : Taking k s₀ root latest files moved s)
    (like : Like s s') : Taking k s₀ root latest files moved s' := by
  rw [Taking, like.engine, like.disk]
  exact h

theorem Taking.leadsOnlyTo {moved : Bool} (h : Taking k s₀ root latest files moved s) :
    s.disk.LeadsOnlyTo k.directory root :=
  h.2.2.leadsOnlyTo

theorem upholds_removeStale (h : Taking k s₀ root latest files true s) (names : List String) :
    Upholds kind (Taking k s₀ root latest files) (fun r m _ => r = (.ok (), k) ∧ m = true)
      ((removeStale (some s₀.id) names).script k) true s := by
  induction names generalizing s with
  | nil => exact upholds_done h ⟨rfl, rfl⟩
  | cons name names ih =>
    rw [removeStale]
    cases parsed : Id.parse? name with
    | none => exact ih h
    | some id =>
      simp only
      split
      · rename_i stale
        rw [Activity.script_get_bind, Activity.script_ask_bind]
        obtain ⟨reply, d, s₁, answered, placed, within, changes⟩ :=
          answer_removeTree_cases h.leadsOnlyTo (isName_of_parse? parsed)
        refine upholds_ask_still h answered rfl (ih (h.removed placed within changes
          (ne_of_parse? parsed).1 ?_))
        rintro _ ⟨⟩ rfl
        exact stale (by rw [← parsed]; exact Id.parse?_render s₀.id)
      · exact ih h

theorem upholds_clearStale (h : Taking k s₀ root latest files true s) :
    Upholds kind (Taking k s₀ root latest files) (fun r m _ => r = (.ok (), k) ∧ m = true)
      ((clearStale (some s₀.id)).script k) true s := by
  rw [clearStale, Activity.script_get_bind, Activity.script_ask_bind]
  obtain ⟨reply, s₁, answered, like⟩ := answer_still_cases rfl (s.disk.disk_of_list k.directory)
  refine upholds_ask_still h answered rfl ?_
  cases reply with
  | ok names => exact upholds_removeStale (h.like like) _
  | error fault => exact upholds_done (h.like like) ⟨rfl, rfl⟩

theorem upholds_isReferenced {moved : Bool} (h : Taking k s₀ root latest files moved s) (id : Id) :
    Upholds kind (Taking k s₀ root latest files)
      (fun r m s' => (∃ found, r = (.ok found, k)) ∧ m = moved ∧ Like s s')
      ((isReferenced id).script k) moved s := by
  rw [isReferenced, Activity.script_outcome_bind, loadManifest, Activity.script_get_bind,
    Activity.script_ask_bind, Script.ask_bind]
  obtain ⟨reply, s₁, answered, like⟩ :=
    answer_still_cases rfl (s.disk.disk_of_read (Place.manifest k.directory))
  refine upholds_ask_still h answered rfl ?_
  rw [Activity.script_ofExcept, Script.done_bind]
  cases Manifest.ofFile reply with
  | error e => exact upholds_done (h.like like) ⟨⟨_, rfl⟩, rfl, like⟩
  | ok manifest =>
    cases manifest with
    | none => exact upholds_done (h.like like) ⟨⟨_, rfl⟩, rfl, like⟩
    | some manifest => exact upholds_done (h.like like) ⟨⟨_, rfl⟩, rfl, like⟩

theorem references_of_latest? {manifest : Manifest} {record : BackupRecord}
    (latest : manifest.latest? = some record) : manifest.references record.id.render = true :=
  List.any_eq_true.2 ⟨record, List.mem_of_getLast? latest, decide_eq_true rfl⟩

/-- A backup that is complete is found to be named by the manifest, if that can be read. -/
theorem upholds_isReferenced_committed (h : Committed k s₀ root s)
    (reads : ∀ path, kind (.disk (.read path))) :
    Upholds kind (Taking k s₀ root latest files) (fun r m _ => r = (.ok true, k) ∧ m = true)
      ((isReferenced s₀.id).script k) true s := by
  rw [isReferenced, Activity.script_outcome_bind, loadManifest, Activity.script_get_bind,
    Activity.script_ask_bind, Script.ask_bind]
  refine upholds_disk_spared h.taking (reads _) rfl fun s₁ placed => ?_
  rw [call_read] at placed ⊢
  have h₁ := h.like placed.like
  cases h.holds with
  | backup read latest _ _ _ =>
    rw [Activity.script_ofExcept, Script.done_bind, read]
    refine upholds_done h₁.taking ⟨?_, rfl⟩
    have named := references_of_latest? latest
    show (Except.ok _, k) = _
    rw [← named]
    rfl

/-! ## The whole backup -/

/-- How the taking of a backup ends: it succeeds if and only if the manifest is replaced, where the
directory is made last without fail. -/
structure TakingEnds (kind : KeeperRequest → Prop) (k : Keeper)
    (r : Except StoreError BackupRecord × Keeper) (moved : Bool) : Prop where
  keeper : ∃ phase, r.2 = { k with phase }
  moved : Lasts kind k → moved = r.1.isOk

/-- A backup that is taken leaves the one before it or the new one at each of its requests, and it
succeeds if and only if it leaves the new one. This holds where the directory is made last without
fail; where that may fail, the manifest must not fail to be read after it, since a backup that is not
found in the manifest is removed. -/
theorem upholds_snapshot (prepared : Prepared k s₀ root latest files)
    (reads : ¬Lasts kind k → ∀ path, kind (.disk (.read path))) (pages : Nat) :
    Upholds kind (Taking k s₀ root latest files) (fun r m _ => TakingEnds kind k r m)
      ((snapshot pages).script k) false s₀ := by
  have prepared' : Prepared (inPhase .backingUp k) s₀ root latest files :=
    ⟨prepared.leads, prepared.holds, prepared.unused, prepared.sound, prepared.plain,
      prepared.fits⟩
  have h := prepared.underway
  rw [snapshot, Activity.script_get_bind]
  split
  · exact upholds_done h.taking ⟨⟨k.phase, rfl⟩, fun _ => rfl⟩
  show Upholds _ _ _ (Activity.script (Activity.change _ >>= _) k) _ _
  rw [Activity.script_change_bind, Activity.script_ask_bind]
  refine upholds_ask_still h.taking rfl rfl ?_
  rw [Activity.script_outcome_bind]
  apply (upholds_writeBackup prepared' prepared'.underway pages).bind
  rintro ⟨result, k'⟩ m s₁ holds ⟨rfl, ok, error⟩
  dsimp only
  rw [Activity.script_change_bind]
  have ready : ∃ phase, inPhase .ready (inPhase .backingUp k) = { k with phase } := ⟨.ready, rfl⟩
  have sameLasts : Lasts kind (inPhase .ready (inPhase .backingUp k)) = Lasts kind k := rfl
  generalize hk : inPhase .ready (inPhase .backingUp k) = k' at ready sameLasts
  have same : Taking (inPhase .backingUp k) s₀ root latest files = Taking k' s₀ root latest files := by
    rw [← hk]
    rfl
  rw [same]
  cases result with
  | ok record =>
    obtain ⟨rfl, committed⟩ := ok record rfl
    have taking : Taking k' s₀ root latest files true s₁ := same ▸ committed.taking
    refine upholds_bind (upholds_clearStale taking) ?_ ?_
    · rintro _ k'' m s₂ holds ⟨⟨⟩, rfl⟩
      exact upholds_done holds ⟨ready, fun _ => rfl⟩
    · rintro e k'' m s₂ _ ⟨ended, _⟩
      cases ended
  | error e =>
    rcases error e rfl with ⟨rfl, underway⟩ | ⟨rfl, committed, late⟩
    · have taking : Taking k' s₀ root latest files false s₁ := same ▸ underway.taking
      refine upholds_bind (upholds_isReferenced taking s₀.id) ?_ ?_
      · rintro found k'' m s₂ holds ⟨⟨_, ended⟩, rfl, like⟩
        cases ended
        split
        · rw [Activity.script_get_bind, Activity.script_ask_bind]
          obtain ⟨reply, d, s₃, answered, placed, within, changes⟩ :=
            answer_removeTree_cases holds.leadsOnlyTo (isName_render s₀.id)
          refine upholds_ask_still holds answered rfl (upholds_done (holds.removed placed within changes
            (ne_of_parse? (Id.parse?_render s₀.id)).1 ?_) ⟨ready, fun _ => rfl⟩)
          intro record eq same
          exact prepared.unused record eq (Id.render_injective same).symm
        · exact upholds_done holds ⟨ready, fun _ => rfl⟩
      · rintro e k'' m s₂ _ ⟨⟨_, ended⟩, _⟩
        cases ended
    · have committed' : Committed k' s₀ root s₁ := by
        rw [← hk]
        exact ⟨committed.leads, committed.holds, committed.outside, committed.sound⟩
      have found : Upholds kind (Taking k' s₀ root latest files)
          (fun r m _ => r = (.ok true, k') ∧ m = true) ((isReferenced s₀.id).script k') true s₁ :=
        upholds_isReferenced_committed committed' (reads late)
      refine upholds_bind found ?_ ?_
      · rintro found k'' m s₂ holds ⟨ended, rfl⟩
        cases ended
        exact upholds_done holds ⟨ready, fun lasts => absurd lasts late⟩
      · rintro e k'' m s₂ _ ⟨ended, _⟩
        cases ended

end Taking

end Site

end SnapshotStore
