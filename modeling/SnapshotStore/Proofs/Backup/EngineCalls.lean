import SnapshotStore.Proofs.Backup.Asks
import SnapshotStore.Proofs.Backup.Creation
import SnapshotStore.Proofs.Backup.Requests

/-!
What a restore asks the engine for, where nothing goes wrong: to open the partition of each file that
can be read, up to the first that cannot, and to put the file's entries into it one by one, and, if
there is one that cannot be read, to remove what was opened (`Site.calling_create`).
-/

namespace SnapshotStore

open Keeper OrderedMap

/-- The files of names, up to the first name that spells no entries. -/
def readable (spells : String → Except StoreError (List Entry)) :
    List String → List (String × List Entry)
  | [] => []
  | name :: names =>
    match spells name with
    | .ok entries => (name, entries) :: readable spells names
    | .error _ => []

/-- The requests that load files into the partitions of some handles. -/
def loading (handle : String → PartitionId) (files : List (String × List Entry)) :
    List KeeperRequest :=
  files.flatMap fun file =>
    .openPartition file.1 :: file.2.map fun entry => .call (handle file.1) (.put entry.1 entry.2)

theorem loading_cons (handle : String → PartitionId) (file : String × List Entry)
    (files : List (String × List Entry)) :
    loading handle (file :: files) =
      .openPartition file.1 :: ((file.2.map fun entry =>
        .call (handle file.1) (.put entry.1 entry.2)) ++ loading handle files) := rfl

/-- The handle that an engine has registered for a name. -/
def Engine.handle (e : Engine) (name : String) : PartitionId := (e.registered.get? name).getD 0

/-- Whether an engine registers what another one does. -/
def Engine.Extends (e e' : Engine) : Prop :=
  ∀ name id, e.registered.get? name = some id → e'.registered.get? name = some id

section Readable

variable {spells : String → Except StoreError (List Entry)} {names : List String}

theorem readable_of_ok {name : String} {entries : List Entry} (here : spells name = .ok entries) :
    readable spells (name :: names) = (name, entries) :: readable spells names := by
  rw [readable, here]

theorem readable_of_error {name : String} {e : StoreError} (here : spells name = .error e) :
    readable spells (name :: names) = [] := by
  rw [readable, here]

theorem spells_of_mem_readable {file : String × List Entry} (mem : file ∈ readable spells names) :
    spells file.1 = .ok file.2 := by
  induction names with
  | nil => cases mem
  | cons name names ih =>
    cases here : spells name with
    | error e =>
      rw [readable_of_error here] at mem
      cases mem
    | ok entries =>
      rw [readable_of_ok here] at mem
      rcases List.mem_cons.1 mem with rfl | mem
      · exact here
      · exact ih mem

/-- All files can be read if all names spell entries. -/
theorem readable_whole_iff :
    (readable spells names).map Prod.fst = names ↔ ∀ name ∈ names, (spells name).toBool = true := by
  induction names with
  | nil => exact ⟨nofun, fun _ => rfl⟩
  | cons name names ih =>
    rw [List.forall_mem_cons, ← ih]
    cases here : spells name with
    | error e =>
      rw [readable_of_error here]
      exact ⟨nofun, fun both => absurd both.1 Bool.false_ne_true⟩
    | ok entries =>
      rw [readable_of_ok here, List.map_cons]
      exact ⟨fun same => ⟨rfl, (List.cons.inj same).2⟩, fun both => congrArg _ both.2⟩

end Readable

theorem Engine.extends_openPartition (e : Engine) (name : String) :
    e.Extends (e.openPartition name).2 := by
  intro other id known
  rw [openPartition]
  split
  · exact known
  · split
    · exact known
    · rename_i unknown
      rw [get?_insert, if_neg]
      · exact known
      · rintro rfl
        rw [unknown] at known
        cases known

theorem Engine.Extends.handle {e e' : Engine} (h : e.Extends e') {name : String} {id : PartitionId}
    (known : e.registered.get? name = some id) : e'.handle name = id := by
  rw [Engine.handle, h name id known]
  rfl

namespace Site

variable {α β : Type}

/-- The requests of a script that are made of the engine and of its partitions. -/
def engineCalls : Script keeperInterface α → Site → List KeeperRequest
  | .done _, _ => []
  | .ask r resume, s =>
    let rest := engineCalls (resume (answer r s).1) (answer r s).2
    if r.isOfEngine then r :: rest else rest

/-- Whether a script ends as `E` says, given what it asks the engine for. -/
def Calling (E : List KeeperRequest → α → Site → Prop) (p : Script keeperInterface α) (s : Site) :
    Prop :=
  E (engineCalls p s) (p.run answer s).1 (p.run answer s).2

section Rules

variable {E : List KeeperRequest → α → Site → Prop} {F : List KeeperRequest → β → Site → Prop}
  {p : Script keeperInterface α} {s s' : Site} {r : KeeperRequest}
  {resume : r.Reply → Script keeperInterface α} {reply : r.Reply}

theorem Calling.mono {E' : List KeeperRequest → α → Site → Prop} (h : Calling E p s)
    (imp : ∀ calls a s, E calls a s → E' calls a s) : Calling E' p s :=
  imp _ _ _ h

theorem calling_done {a : α} (h : E [] a s) : Calling E (.done a) s := h

theorem calling_ask (of_engine : r.isOfEngine = true) (answered : answer r s = (reply, s'))
    (next : Calling (fun calls => E (r :: calls)) (resume reply) s') :
    Calling E (.ask r resume) s := by
  rw [Calling, engineCalls, Script.run_ask, answered, of_engine]
  exact next

theorem calling_ask_other (other : r.isOfEngine = false) (answered : answer r s = (reply, s'))
    (next : Calling E (resume reply) s') : Calling E (.ask r resume) s := by
  rw [Calling, engineCalls, Script.run_ask, answered, other]
  exact next

theorem engineCalls_bind (p : Script keeperInterface α) (f : α → Script keeperInterface β)
    (s : Site) :
    engineCalls (p.bind f) s =
      engineCalls p s ++ engineCalls (f (p.run answer s).1) (p.run answer s).2 := by
  induction p generalizing s with
  | done a => rfl
  | ask r resume ih =>
    rw [Script.ask_bind, engineCalls, engineCalls, Script.run_ask, ih]
    split <;> rfl

/-- A script that asks nothing of the engine. -/
theorem Ends.calling {E : α → Site → Prop} {Q : α → Prop} (h : Ends E p s)
    (asks : p.Asks (fun r => KeeperRequest.isOfEngine r = false) Q) :
    Calling (fun calls a s' => calls = [] ∧ E a s') p s := by
  refine ⟨?_, h⟩
  clear h
  induction p generalizing s with
  | done a => rfl
  | ask r resume ih =>
    rw [engineCalls, asks.1]
    exact ih _ (asks.2 _)

end Rules

theorem Calm.stays {s : Site} (calm : s.Calm) (p : Script keeperInterface α) :
    (p.run Site.answer s).2.Calm := by
  induction p generalizing s with
  | done a => exact calm
  | ask r resume ih => exact ih _ (calm.answer r)

theorem Calm.bind {E : List KeeperRequest → α → Site → Prop} {F : List KeeperRequest → β → Site → Prop}
    {s : Site} {p : Script keeperInterface α} {f : α → Script keeperInterface β} (calm : s.Calm)
    (h : Calling E p s)
    (next : ∀ calls a s', s'.Calm → E calls a s' →
      Calling (fun more => F (calls ++ more)) (f a) s') :
    Calling F (p.bind f) s := by
  rw [Calling, engineCalls_bind, Script.run_bind]
  exact next _ _ _ (calm.stays p) h

/-- Reading backups and clearing them away asks nothing of the engine. -/
theorem isOfEngine_of_clears (dir : Path) :
    ∀ r, KeeperRequest.Clears dir none r → r.isOfEngine = false := by
  intro r clears
  cases clears <;> rfl

section Restoring

variable {k : Keeper} {s : Site} {d : Disk} {name : String}

/-- What a snapshot is found to spell where nothing goes wrong. -/
theorem Settled.eq_ok_iff {ε δ α : Type} {x : Except δ α} {result : Except ε α}
    (h : Settled [] (fun a => x = .ok a) (∀ a, x ≠ .ok a) result) (a : α) :
    result = .ok a ↔ x = .ok a := by
  cases result with
  | ok b =>
    rw [h.2, Except.ok.injEq, Except.ok.injEq]
  | error e =>
    exact ⟨by rintro ⟨⟩, fun here => absurd here ((h.resolve_left fun none => none rfl) a)⟩

theorem calling_readSnapshot (calm : s.Calm) (busy : Busy d s) (id : Id) (entity : String) :
    Calling (fun calls r s' => calls = [] ∧ ∃ result, r = (result, k) ∧ Busy d s' ∧
        s'.engine = s.engine ∧ ∀ entries, result = .ok entries ↔
          k.format.ofFile (d.fileAt (Place.snapshot k.directory id entity)) = .ok entries)
      ((readSnapshot id entity).script k) s := by
  have asks := Activity.asks_readSnapshot (isOfEngine_of_clears k.directory) id entity k rfl
  refine ((calm.ends (meets_readSnapshot busy id entity)).calling asks).mono ?_
  rintro calls r s' ⟨none, result, ended, busy', engine, settled⟩
  exact ⟨none, result, ended, busy', engine, settled.eq_ok_iff⟩

/-- Entries are put one by one. -/
theorem calling_loadEntries {id : PartitionId} (calm : s.Calm) (busy : Busy d s)
    (registered : s.engine.registered.get? name = some id) (entries : List Entry) :
    Calling (fun calls r s' => calls = (entries.map fun entry => .call id (.put entry.1 entry.2)) ∧
        r = (.ok (), k) ∧ Busy d s' ∧ s'.engine.registered = s.engine.registered)
      ((loadEntries id entries).script k) s := by
  constructor
  · clear busy registered
    induction entries generalizing s with
    | nil => rfl
    | cons entry entries ih =>
      obtain ⟨key, value⟩ := entry
      rw [loadEntries, Activity.script_ask_bind, engineCalls, answer, onEngine_of_calm calm]
      have calm' := calm.answer (.call id (.put key value))
      rw [answer, onEngine_of_calm calm] at calm'
      rw [List.map_cons, ← ih calm']
      rfl
  · obtain ⟨result, ended, busy', same, settled⟩ :=
      calm.ends (meets_loadEntries (k := k) entries busy registered)
    cases result with
    | ok _ => exact ⟨ended, busy', same⟩
    | error e => exact absurd settled (by simp [Settled])

/-- The loading of files: what was asked of the engine for it, and that the engine has registered the
files' names and what was registered before. -/
structure Loads (files : List (String × List Entry)) (e : Engine) (calls : List KeeperRequest)
    (e' : Engine) : Prop where
  extends' : e.Extends e'
  calls : calls = loading e'.handle files
  known : ∀ file ∈ files, e'.registered.get? file.1 = some (e'.handle file.1)

/-- The loading of one more file before others. -/
theorem Loads.cons {files : List (String × List Entry)} {entries : List Entry} {id : PartitionId}
    {e₁ e₂ e' : Engine} {calls : List KeeperRequest} (h : Loads files e₂ calls e')
    (extends₁ : e₁.Extends e₂) (registered : e₂.registered.get? name = some id) :
    Loads ((name, entries) :: files) e₁
      (.openPartition name :: ((entries.map fun entry => .call id (.put entry.1 entry.2)) ++ calls))
      e' := by
  have handle : e'.handle name = id := h.extends'.handle registered
  refine ⟨fun other id known => h.extends' other id (extends₁ other id known), ?_, ?_⟩
  · rw [loading_cons, handle, h.calls]
  · exact List.forall_mem_cons.2 ⟨handle ▸ h.extends' name id registered, h.known⟩

/-- The files that can be read are loaded in turn. -/
theorem calling_restoreStores (calm : s.Calm) (busy : Busy d s) (id : Id) (names : List String) :
    Calling (fun calls r s' => ∃ tracked result files,
        files = readable (fun name =>
          k.format.ofFile (d.fileAt (Place.snapshot k.directory id name))) names ∧
        r = (.ok (files.map Prod.fst, result), { k with tracked }) ∧
        (result.isOk = true ↔ files.map Prod.fst = names) ∧ Busy d s' ∧
        Loads files s.engine calls s'.engine)
      ((restoreStores id names).script k) s := by
  induction names generalizing k s with
  | nil =>
    exact calling_done ⟨k.tracked, .ok (), [], rfl, rfl, ⟨fun _ => rfl, fun _ => rfl⟩, busy,
      fun _ _ known => known, rfl, nofun⟩
  | cons name names ih =>
    rw [restoreStores, Activity.script_outcome_bind, Activity.script_wrapping, Script.bind_assoc]
    apply calm.bind (calling_readSnapshot calm busy id name)
    rintro _ _ s₁ calm₁ ⟨rfl, result, rfl, busy₁, engine₁, spelled⟩
    rw [← engine₁]
    cases result with
    | error e =>
      cases here : k.format.ofFile (d.fileAt (Place.snapshot k.directory id name)) with
      | ok entries => cases (spelled entries).2 here
      | error e' =>
        exact calling_done ⟨k.tracked, _, [], (readable_of_error here).symm, rfl,
          ⟨by rintro ⟨⟩, by rintro ⟨⟩⟩, busy₁, fun _ _ known => known, rfl, nofun⟩
    | ok entries =>
      have here := (spelled entries).1 rfl
      show Calling _ (Activity.script (Activity.ask (.openPartition name) >>= _) _) _
      rw [Activity.script_ask_bind]
      obtain ⟨partition, engine, opened, sound, isOpen, registered, -⟩ :=
        Engine.openPartition_open busy₁.sound busy₁.opened name
      have extends₁ := Engine.extends_openPartition s₁.engine name
      have answered : answer (.openPartition name) s₁ = (.ok partition, { s₁ with engine }) := by
        rw [answer, onEngine_of_calm calm₁, opened]
      rw [opened] at extends₁
      refine calling_ask rfl answered ?_
      have calm₂ := calm₁.answer (.openPartition name)
      rw [answered] at calm₂
      have busy₂ : Busy d { s₁ with engine } := ⟨sound, isOpen, busy₁.disk, busy₁.steady⟩
      show Calling _ (Activity.script (Activity.outcome _ >>= _) _) _
      rw [Activity.script_outcome_bind, Activity.script_wrapping, Script.bind_assoc]
      apply calm₂.bind (calling_loadEntries calm₂ busy₂ registered entries)
      rintro _ _ s₃ calm₃ ⟨rfl, rfl, busy₃, same⟩
      show Calling _ (Activity.script (Activity.change (track name) >>= _) _) _
      rw [Activity.script_change_bind, Activity.script_bind]
      apply calm₃.bind (ih (k := track name k) calm₃ busy₃)
      rintro calls _ s' - ⟨tracked, result, files, isFiles, rfl, whole, busy', loads⟩
      refine calling_done ⟨tracked, result, (name, entries) :: files, ?_, rfl, ?_, busy', ?_⟩
      · rw [readable_of_ok here, isFiles]
        rfl
      · rw [whole, List.map_cons, List.cons.injEq]
        exact ⟨fun rest => ⟨rfl, rest⟩, fun both => both.2⟩
      · rw [List.nil_append, List.append_nil]
        have extends₃ : s₁.engine.Extends s₃.engine :=
          fun other id found => same ▸ extends₁ other id found
        exact loads.cons extends₃ (same ▸ registered)

/-! ## Discarding -/

theorem within_answer_of_clears {dir : Path} {r : KeeperRequest} (clears : r.Clears dir none)
    (within : s.disk.Within d) : (answer r s).2.disk.Within d := by
  have lower : ∀ c, c.atOnce = true → (s.disk.call c).2.Within s.disk →
      (answer (.disk c) s).2.disk.Within d := by
    intro c atOnce less
    rcases s.onDisk_atOnce_cases atOnce with ⟨fault, s', answered, like⟩ | ⟨s', answered, placed⟩
    · rw [answer, answered, like.disk]
      exact within
    · rw [answer, answered, placed.disk]
      exact less.trans within
  cases clears with
  | read path =>
    refine lower _ rfl ?_
    rw [Disk.disk_of_read]
    exact .refl _
  | list path =>
    refine lower _ rfl ?_
    rw [Disk.disk_of_list]
    exact .refl _
  | admitRead entity => exact within
  | manifest _ => exact lower _ rfl (Disk.within_removeFile _ _)
  | temporary _ => exact lower _ rfl (Disk.within_removeFile _ _)
  | backup parsed _ => exact (within_answer_removeTree s (Disk.isName_of_parse? parsed)).trans within

/-- No manifest is found where all backups were cleared away. -/
theorem calling_clear (calm : s.Calm) :
    Calling (fun calls r s' => calls = [] ∧ r = (.ok (), k) ∧
        ∀ content, s'.disk.fileAt (Place.manifest k.directory) ≠ .ok content)
      (Activity.script (do
        let k ← get
        let _ ← Activity.ask (.disk (.removeFile (Place.manifest k.directory)))
        let _ ← Activity.ask (.disk (.removeFile (Place.temporary k.directory)))
        clearStale none) k) s := by
  refine Ends.calling ?_ (Activity.asks_clear (isOfEngine_of_clears k.directory) k rfl)
  refine ⟨(calm.ends (meets_clear (k := k) calm.disk)).1, ?_⟩
  show Ends (fun _ s' => ∀ content, s'.disk.fileAt (Place.manifest k.directory) ≠ .ok content) _ s
  rw [Activity.script_get_bind, Activity.script_ask_bind]
  refine ends_ask (onDisk_of_calm calm _) ?_
  have rest : Activity.Asks (KeeperRequest.Clears k.directory none) k.directory (do
      let _ ← Activity.ask (.disk (.removeFile (Place.temporary k.directory)))
      clearStale none : Activity StoreError Unit) :=
    (Activity.asks_ask (.temporary rfl)).bind fun _ => Activity.asks_clearStale fun _ h => h
  refine ((rest k rfl).ends (J := fun s' => s'.disk.Within
    (s.disk.call (.removeFile (Place.manifest k.directory))).2) ?_ (.refl _)).mono ?_
  · exact fun r s clears within => within_answer_of_clears clears within
  · rintro _ _ ⟨-, within⟩ content there
    exact Disk.fileAt_removeFile _ _ content (Disk.fileAt_of_within within there)

theorem calling_discardStores (calm : s.Calm) (busy : Busy d s) (names : List String) :
    Calling (fun calls r _ => calls = names.map .removePartition ∧
        ∃ tracked, r = (.ok (), { k with tracked }))
      ((discardStores names).script k) s := by
  constructor
  · clear busy
    induction names generalizing k s with
    | nil => rfl
    | cons name names ih =>
      rw [discardStores, Activity.script_ask_bind, Activity.script_change_bind, engineCalls,
        List.map_cons, ← ih (calm.answer (.removePartition name))]
      rfl
  · obtain ⟨tracked, ended, -⟩ := calm.ends (meets_discardStores busy.opened busy.sound names)
    exact ⟨tracked, ended⟩

theorem calling_discard (calm : s.Calm) (busy : Busy d s) (names : List String) :
    Calling (fun calls r s' => calls = names.map .removePartition ∧
        (∃ tracked, r = (.ok (), { k with tracked })) ∧
        ∀ content, s'.disk.fileAt (Place.manifest k.directory) ≠ .ok content)
      ((Keeper.discard names).script k) s := by
  rw [Keeper.discard, Activity.script_bind]
  apply calm.bind (calling_discardStores calm busy names)
  rintro _ _ s₁ calm₁ ⟨rfl, tracked, rfl⟩
  refine (calling_clear calm₁).mono ?_
  rintro _ _ _ ⟨rfl, rfl, gone⟩
  exact ⟨List.append_nil _, ⟨tracked, rfl⟩, gone⟩

/-! ## The whole restore -/

theorem calling_restorable {manifest : Manifest} {record : BackupRecord} (calm : s.Calm)
    (read : Manifest.ofFile (s.disk.fileAt (Place.manifest k.directory)) = .ok (some manifest))
    (latest : manifest.latest? = some record) (same : record.format = k.format) :
    Calling (fun calls r s' => calls = [] ∧ r = (.ok (some record), k) ∧ s' = s)
      (restorable.script k) s := by
  refine Ends.calling ?_ (Activity.asks_restorable (isOfEngine_of_clears k.directory) k rfl)
  rw [restorable, Activity.script_bind, loadManifest, Activity.script_get_bind,
    Activity.script_ask_bind, Script.ask_bind]
  have answered : answer (.disk (.read (Place.manifest k.directory))) s =
      (s.disk.fileAt (Place.manifest k.directory), s) := by
    rw [answer, onDisk_of_calm calm, Disk.call_read]
  refine ends_ask answered ?_
  rw [Activity.script_ofExcept, Script.done_bind, read]
  dsimp only [Except.mapError]
  rw [latest]
  show Ends _ (Activity.script (get >>= _) k) _
  rw [Activity.script_get_bind, if_pos same]
  exact ends_done ⟨rfl, rfl⟩

/-- Where the manifest names a backup in the keeper's format, the files are loaded that can be read,
and what was opened for them is given up again unless these are all. -/
theorem calling_create {manifest : Manifest} {record : BackupRecord}
    {files : List (String × List Entry)} (calm : s.Calm) (busy : Busy d s)
    (makes : d.call (.makeDirectories k.directory) = (.ok (), d))
    (read : Manifest.ofFile (d.fileAt (Place.manifest k.directory)) = .ok (some manifest))
    (latest : manifest.latest? = some record) (same : record.format = k.format)
    (isFiles : files = readable (fun name =>
      k.format.ofFile (d.fileAt (Place.snapshot k.directory record.id name))) record.stores) :
    Calling (fun calls _ s' => ∃ handle,
        (∀ file ∈ files, ∀ file' ∈ files, handle file.1 = handle file'.1 → file.1 = file'.1) ∧
        (files.map Prod.fst = record.stores → calls = loading handle files) ∧
        (files.map Prod.fst ≠ record.stores →
          calls = loading handle files ++ (files.map Prod.fst).map .removePartition ∧
          ∀ content, s'.disk.fileAt (Place.manifest k.directory) ≠ .ok content))
      (create.script k) s := by
  rw [create, Activity.script_get_bind, Activity.script_disk_bind]
  obtain rfl := busy.disk
  have answered : answer (.disk (.makeDirectories k.directory)) s = (.ok (), s) := by
    rw [answer, onDisk_of_calm calm, makes]
  refine calling_ask_other rfl answered ?_
  show Calling _ (Activity.script (Activity.change (inPhase .restoring) >>= _) k) _
  rw [Activity.script_change_bind, Activity.script_bind, restore, Activity.script_outcome_bind,
    Script.bind_assoc]
  apply calm.bind (calling_restorable (k := inPhase .restoring k) calm read latest same)
  rintro _ _ _ - ⟨rfl, rfl, rfl⟩
  show Calling _ (Script.bind (Activity.script (restoreStores record.id record.stores >>= _) _) _) _
  rw [Activity.script_bind, Script.bind_assoc]
  apply calm.bind (calling_restoreStores calm busy record.id record.stores)
  rintro _ _ s₁ calm₁ ⟨tracked, result, files', isFiles', rfl, whole, busy₁, loads⟩
  obtain rfl : files = files' := isFiles.trans isFiles'.symm
  have apart : ∀ file ∈ files, ∀ file' ∈ files,
      s₁.engine.handle file.1 = s₁.engine.handle file'.1 → file.1 = file'.1 := by
    intro file mem file' mem' shared
    have known := loads.known file mem
    rw [shared] at known
    exact busy₁.sound.apart known (loads.known file' mem')
  cases result with
  | ok _ =>
    refine calling_done ⟨s₁.engine.handle, apart, fun _ => ?_, ?_⟩
    · simpa using loads.calls
    · exact fun broken => absurd (whole.1 rfl) broken
  | error e =>
    have broken : files.map Prod.fst ≠ record.stores := by
      intro same
      cases whole.2 same
    apply calm₁.bind (calling_discard calm₁ busy₁ (files.map Prod.fst))
    rintro _ _ s' - ⟨rfl, ⟨tracked, rfl⟩, gone⟩
    refine calling_done ⟨s₁.engine.handle, apart, fun same => absurd same broken,
      fun _ => ⟨?_, gone⟩⟩
    simpa using loads.calls

end Restoring

end Site

end SnapshotStore
