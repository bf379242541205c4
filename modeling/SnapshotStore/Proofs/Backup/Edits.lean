import SnapshotStore.Proofs.Backup.Asks
import SnapshotStore.Proofs.Backup.Clearing
import SnapshotStore.Proofs.Backup.Requests

/-!
What a keeper does to its directory. `Disk.Edits` says at which names a disk was changed, and at
which something was lost at most. Clearing away takes only what it is to clear
(`Site.edits_of_clears`), and the writing of a backup changes only the names of the manifest and of
the identifier (`Site.edits_of_saves`), so that whatever fails, an entry of the directory is left
alone that has neither a name of the manifest nor that of an identifier (`Site.ends_tends_restore`,
`Site.ends_tends_snapshot`).
-/

namespace SnapshotStore

namespace Disk

variable {d d' d'' : Disk} {root : Location} {free free' loose loose' : String → Prop}

/-- A disk that differs from another one only below a location: at names that are free, and at names
that are loose, where something may be lost. -/
structure Edits (free loose : String → Prop) (root : Location) (d d' : Disk) : Prop where
  outside : SameOutside root d d'
  same : ∀ name, ¬free name → ¬loose name →
    ∀ q, d'.node? (root ++ name :: q) = d.node? (root ++ name :: q)
  less : ∀ name, ¬free name → ∀ q node, d'.node? (root ++ name :: q) = some node →
    d.node? (root ++ name :: q) = some node

theorem Edits.refl (free loose : String → Prop) (root : Location) (d : Disk) :
    Edits free loose root d d :=
  ⟨.refl root d, fun _ _ _ _ => rfl, fun _ _ _ _ stands => stands⟩

theorem Edits.trans (h : Edits free loose root d d') (h' : Edits free loose root d' d'') :
    Edits free loose root d d'' := by
  refine ⟨h.outside.trans h'.outside, fun name apart firm q => ?_, fun name apart q node stands => ?_⟩
  · exact (h'.same name apart firm q).trans (h.same name apart firm q)
  · exact h.less name apart q node (h'.less name apart q node stands)

theorem Edits.mono (h : Edits free loose root d d') (frees : ∀ name, free name → free' name)
    (looses : ∀ name, loose name → free' name ∨ loose' name) : Edits free' loose' root d d' := by
  refine ⟨h.outside, fun name apart firm q => ?_, fun name apart => ?_⟩
  · exact h.same name (fun h => apart (frees name h)) (fun h => (looses name h).elim apart firm) q
  · exact h.less name fun h => apart (frees name h)

/-- Different names of a directory have nothing below them in common. -/
theorem name_of_below {name other : String} {rest q : List String}
    (below : root ++ name :: rest <+: root ++ other :: q) : name = other :=
  (List.cons_prefix_cons.1 ((List.prefix_append_right_inj root).1 below)).1

theorem ChangesOnly.edits {name : String} {rest : List String}
    (changes : ChangesOnly d d' (root ++ name :: rest)) (isFree : free name) :
    Edits free loose root d d' := by
  have other : ∀ other, ¬free other →
      ∀ q, d'.node? (root ++ other :: q) = d.node? (root ++ other :: q) := by
    intro other apart q
    exact changes _ fun below => apart (name_of_below below ▸ isFree)
  exact ⟨changes.sameOutside, fun name apart _ => other name apart,
    fun name apart q _ stands => other name apart q ▸ stands⟩

theorem ChangesOnly.edits_within {name : String} {rest : List String}
    (changes : ChangesOnly d d' (root ++ name :: rest)) (within : Within d' d)
    (isLoose : loose name) : Edits free loose root d d' := by
  refine ⟨changes.sameOutside, fun other _ firm q => ?_, fun _ _ q => within _⟩
  exact changes _ fun below => firm (name_of_below below ▸ isLoose)

/-- Whether a name is one of the two of the manifest. -/
def IsOfManifest (name : String) : Prop :=
  name = Manifest.fileName ∨ name = Manifest.temporaryName

/-- What may be cleared away: what is named like an identifier other than the one that is kept, and
the names of the manifest if none is kept. -/
def Clearable (keep : Option Id) (name : String) : Prop :=
  (keep = none ∧ IsOfManifest name) ∨ ∃ id, Id.parse? name = some id ∧ some id ≠ keep

/-- What is written for the backup of one of some identifiers. -/
def Writable (ids : List Id) (name : String) : Prop :=
  IsOfManifest name ∨ ∃ id ∈ ids, name = id.render

/-- A name of an identifier is written only as that identifier is written, and for its backup. -/
theorem not_writable {ids : List Id} {name : String} {id : Id} (parsed : Id.parse? name = some id)
    (other : id ∈ ids → name ≠ id.render) : ¬Writable ids name := by
  rintro (ofManifest | ⟨id', mem, rfl⟩)
  · exact ofManifest.elim (ne_of_parse? parsed).1 (ne_of_parse? parsed).2
  · rw [Id.parse?_render] at parsed
    cases parsed
    exact other mem rfl

/-- A disk on which a keeper has looked after a directory, and has written backups under some
identifiers at most. -/
def Tended (ids : List Id) : (root : Location) → (d d' : Disk) → Prop :=
  Edits (Writable ids) fun name => ∃ id, Id.parse? name = some id

theorem Tended.mono {ids more : List Id} (h : Tended ids root d d') (sub : ∀ id ∈ ids, id ∈ more) :
    Tended more root d d' := by
  refine Edits.mono h (fun name written => ?_) fun _ spells => .inr spells
  exact written.imp_right fun ⟨id, mem, same⟩ => ⟨id, sub id mem, same⟩

/-- What may be cleared away may be lost in a directory that is looked after. -/
theorem Edits.tended {keep : Option Id} (h : Edits (fun _ => False) (Clearable keep) root d d')
    (ids : List Id) : Tended ids root d d' := by
  refine Edits.mono h (fun _ none => none.elim) fun name cleared => ?_
  rcases cleared with ⟨-, ofManifest⟩ | ⟨id, parsed, -⟩
  · exact .inl (.inl ofManifest)
  · exact .inr ⟨id, parsed⟩

end Disk

namespace Site

open Keeper Disk

variable {s : Site} {dir : Path} {root : Location} {free loose : String → Prop}

/-! ## Requests -/

/-- A call that is done at once changes nothing if it meets a fault. -/
theorem edits_onDisk {c : DiskCall} (atOnce : c.atOnce = true)
    (h : Edits free loose root s.disk (s.disk.call c).2) :
    Edits free loose root s.disk (answer (.disk c) s).2.disk := by
  rcases s.onDisk_atOnce_cases atOnce with ⟨fault, s', answered, like⟩ | ⟨s', answered, placed⟩
  · rw [answer, answered, like.disk]
    exact .refl _ _ _ _
  · rw [answer, answered, placed.disk]
    exact h

theorem disk_answer_engine {r : KeeperRequest} (h : r.isOfEngine = true) :
    (answer r s).2.disk = s.disk := by
  have kept : ∀ {α : Type} (act : Engine → Except StorageError α × Engine),
      (s.onEngine act).2.disk = s.disk := by
    intro α act
    rcases s.onEngine_cases act with ⟨_, _, done, like⟩ | ⟨_, done, engaged⟩
    · rw [done, like.disk]
    · rw [done, engaged.disk]
  cases r with
  | openPartition _ | removePartition _ | closeEngine | call _ _ => exact kept _
  | disk _ | admitWrite _ | admitRead _ | freshId | now => cases h

/-- What is done to the engine alone leaves the disk. -/
theorem ends_engine {ε α : Type} {k : Keeper} {body : Activity ε α}
    (asks : Activity.Asks (fun r => r.isOfEngine = true) k.directory body) :
    Ends (fun r s' => r.2.directory = k.directory ∧ s'.disk = s.disk) (body.script k) s := by
  refine (asks k rfl).ends (J := fun s' => s'.disk = s.disk) (fun r s' ofEngine same => ?_) rfl
  exact (disk_answer_engine ofEngine).trans same

section Names

variable (only : s.disk.LeadsOnlyTo dir root) {name : String}

include only

theorem edits_removeFile (isName : IsName name) (isLoose : loose name) :
    Edits free loose root s.disk (answer (.disk (.removeFile (dir ++ [name]))) s).2.disk := by
  refine edits_onDisk rfl ?_
  rcases removeFile_cases only isName with ⟨fault, failed⟩ | ⟨content, -, done⟩
  · rw [failed]
    exact .refl _ _ _ _
  · rw [done]
    exact (changesOnly_erase s.disk _).edits_within (lessens_erase s.disk root name).within isLoose

theorem edits_removeTree (isName : IsName name) (isLoose : loose name) :
    Edits free loose root s.disk (answer (.disk (.removeTree (dir ++ [name]))) s).2.disk := by
  obtain ⟨_, _, _, answered, placed, within, changes⟩ := answer_removeTree_cases only isName
  rw [answered, placed.disk]
  exact changes.edits_within within isLoose

theorem edits_write {rest : List String} (isName : ∀ n ∈ name :: rest, IsName n) (content : Bytes)
    (isFree : free name) :
    Edits free loose root s.disk
      (answer (.disk (.write (dir ++ name :: rest) content)) s).2.disk := by
  obtain ⟨front, last, split⟩ : ∃ front last, name :: rest = front ++ [last] :=
    ⟨_, _, (List.dropLast_append_getLast (List.cons_ne_nil name rest)).symm⟩
  rw [split] at isName ⊢
  rcases answer_write_cases only isName content with
    ⟨fault, s', answered, like⟩ | ⟨reply, part, s', answered, placed, -, -⟩
  · rw [answered, like.disk]
    exact .refl _ _ _ _
  · rw [answered, placed.disk, ← split]
    exact (changesOnly_set s.disk (root ++ name :: rest) (.file part)).edits isFree

theorem edits_of_clears {keep : Option Id} {r : KeeperRequest} (clears : r.Clears dir keep) :
    Edits (fun _ => False) (Clearable keep) root s.disk (answer r s).2.disk := by
  cases clears with
  | read path =>
    refine edits_onDisk rfl ?_
    rw [disk_of_read]
    exact .refl _ _ _ _
  | list path =>
    refine edits_onDisk rfl ?_
    rw [disk_of_list]
    exact .refl _ _ _ _
  | admitRead entity => exact .refl _ _ _ _
  | manifest all => exact edits_removeFile only isName_manifest (.inl ⟨all, .inl rfl⟩)
  | temporary all => exact edits_removeFile only isName_temporary (.inl ⟨all, .inr rfl⟩)
  | backup parsed stale =>
    exact edits_removeTree only (isName_of_parse? parsed) (.inr ⟨_, parsed, stale⟩)

end Names

theorem edits_of_saves {id : Id} {r : KeeperRequest} (leads : s.disk.LeadsTo dir root)
    (saves : r.Saves dir id) :
    Edits (Writable [id]) loose root s.disk (answer r s).2.disk := by
  have manifest : Writable [id] Manifest.fileName := .inl (.inl rfl)
  have temporary : Writable [id] Manifest.temporaryName := .inl (.inr rfl)
  have directory : Writable [id] id.render := .inr ⟨id, List.mem_singleton_self id, rfl⟩
  cases saves with
  | make =>
    refine edits_onDisk rfl ?_
    rcases makeDirectories_cases leads (isName_render id) with
      ⟨fault, failed⟩ | ⟨-, ⟨-, there⟩ | ⟨-, made⟩⟩
    · rw [Place.backup, failed]
      exact .refl _ _ _ _
    · rw [Place.backup, there]
      exact .refl _ _ _ _
    · rw [Place.backup, made]
      exact (changesOnly_set s.disk _ _).edits directory
  | snapshot entity content =>
    rw [snapshot_eq]
    exact edits_write leads.only (fun _ => isName_of_mem_snapshot) content directory
  | manifest content =>
    exact edits_write leads.only (by simpa using isName_temporary) content temporary
  | commit =>
    refine edits_onDisk rfl ?_
    rcases rename_cases leads.only isName_temporary isName_manifest with
      ⟨fault, failed⟩ | ⟨content, -, -, done⟩
    · rw [Place.temporary, Place.manifest, failed]
      exact .refl _ _ _ _
    · rw [Place.temporary, Place.manifest, done]
      exact ((changesOnly_erase s.disk _).edits temporary).trans
        ((changesOnly_set _ _ _).edits manifest)
  | undo =>
    refine edits_onDisk rfl ?_
    rcases removeFile_cases leads.only isName_temporary with ⟨fault, failed⟩ | ⟨content, -, done⟩
    · rw [Place.temporary, failed]
      exact .refl _ _ _ _
    · rw [Place.temporary, done]
      exact (changesOnly_erase s.disk _).edits temporary
  | sync path =>
    refine edits_onDisk rfl ?_
    rw [disk_of_sync]
    exact .refl _ _ _ _
  | engine h =>
    rw [disk_answer_engine h]
    exact .refl _ _ _ _
  | admitWrite entity => exact .refl _ _ _ _
  | now => exact .refl _ _ _ _

/-! ## Runs -/

/-- A script edits as each of its requests does. -/
theorem ends_edits {α : Type} {R : KeeperRequest → Prop} {Q : α → Prop}
    {p : Script keeperInterface α} (asks : p.Asks R Q) (reaches : s.disk.Reaches dir root)
    (edits : ∀ (s : Site) r, s.disk.LeadsTo dir root → R r →
      Edits free loose root s.disk (answer r s).2.disk) :
    Ends (fun a s' => Q a ∧ Edits free loose root s.disk s'.disk) p s := by
  refine asks.ends (J := fun s' => Edits free loose root s.disk s'.disk) ?_ (.refl _ _ _ _)
  intro r s' kind done
  exact done.trans (edits s' r (reaches.of_sameOutside done.outside).leadsTo kind)

/-- A restore takes away what is cleared at most. -/
theorem ends_tends_restore {k : Keeper} (reaches : s.disk.Reaches k.directory root) :
    Ends (fun _ s' => Tended [] root s.disk s'.disk) (restore.script k) s := by
  have asks := Activity.asks_restore (R := fun r => r.isOfEngine = true ∨ r.Clears k.directory none)
    (fun _ h => .inl h) (fun _ h => .inr h) k rfl
  refine (ends_edits asks reaches fun s r leads kind => ?_).mono fun _ _ ended => ended.2
  rcases kind with ofEngine | clears
  · rw [disk_answer_engine ofEngine]
    exact .refl _ _ _ _
  · exact (edits_of_clears leads.only clears).tended []

/-- The creation of a keeper takes away what is cleared at most. -/
theorem ends_tends_create {k : Keeper} {made : Disk} (steady : s.diskFaults = [])
    (makes : s.disk.call (.makeDirectories k.directory) = (.ok (), made))
    (reaches : made.Reaches k.directory root) :
    Ends (fun _ s' => Tended [] root made s'.disk) (create.script k) s := by
  have answered : answer (.disk (.makeDirectories k.directory)) s =
      (.ok (), { s with disk := made }) := by
    rw [answer, onDisk, steady, makes]
    rfl
  rw [create, Activity.script_get_bind, Activity.script_disk_bind]
  refine ends_ask answered ?_
  show Ends _ (Activity.script (Activity.change (inPhase .restoring) >>= _) k) _
  rw [Activity.script_change_bind, Activity.script_bind]
  have restored := ends_tends_restore (k := inPhase .restoring k) (s := { s with disk := made })
    reaches
  refine restored.bind ?_
  rintro ⟨result, k'⟩ s' tended
  cases result with
  | ok _ => exact ends_done tended
  | error e => exact ends_done tended

/-- Clearing away takes no name but those that are cleared. -/
theorem ends_tends_clears {α : Type} {Q : α → Prop} {p : Script keeperInterface α}
    (asks : p.Asks (KeeperRequest.Clears dir none) Q) (reaches : s.disk.Reaches dir root)
    (ids : List Id) : Ends (fun _ s' => Tended ids root s.disk s'.disk) p s :=
  (ends_edits asks reaches fun _ _ leads clears => edits_of_clears leads.only clears).mono
    fun _ _ ended => ended.2.tended ids

theorem ends_tends_writeBackup {k : Keeper} (reaches : s.disk.Reaches k.directory root)
    (pages : Nat) :
    Ends (fun r s' => r.2.directory = k.directory ∧ Tended [s.id] root s.disk s'.disk)
      ((writeBackup pages s.id).script k) s := by
  have asks := Activity.asks_writeBackup (fun r (saves : r.Saves k.directory s.id) => saves) pages
    k rfl
  exact ends_edits asks reaches fun _ _ leads saves => edits_of_saves leads saves

/-- A backup changes what is written for it, whether it fails or not, and takes away what is
cleared. -/
theorem ends_tends_snapshot {k : Keeper} (reaches : s.disk.Reaches k.directory root) (pages : Nat) :
    Ends (fun _ s' => Tended [s.id] root s.disk s'.disk) ((snapshot pages).script k) s := by
  rw [snapshot, Activity.script_get_bind]
  split
  · exact ends_done (.refl _ _ _ _)
  show Ends _ (Activity.script (Activity.change _ >>= _) k) _
  rw [Activity.script_change_bind, Activity.script_ask_bind]
  refine ends_ask rfl ?_
  rw [Activity.script_outcome_bind]
  refine (ends_tends_writeBackup (k := inPhase .backingUp k) reaches pages).bind ?_
  rintro ⟨result, k'⟩ s₁ ⟨same, written⟩
  replace reaches := reaches.of_sameOutside written.outside
  rw [Activity.script_change_bind]
  cases result with
  | ok record =>
    have asks := (Activity.asks_clearStale fun r (clears : r.Clears k.directory (some s.id)) =>
      clears.all).bind fun _ => Activity.asks_pure (ε := StoreError) record
    exact (ends_tends_clears (asks (inPhase .ready k') same) reaches [s.id]).mono
      fun _ _ cleared => written.trans cleared
  | error e =>
    have reading := Activity.asks_isReferenced
      (fun r (clears : r.Clears k.directory none) => clears) s.id
    have asks : ∀ found, Activity.Asks (KeeperRequest.Clears k.directory none) k.directory (do
        if ¬found = true then
          let _ ← Activity.ask (.disk (.removeTree ((← get).backupPath s.id)))
        throw e : Activity StoreError BackupRecord) := by
      intro found
      dsimp only
      split
      · refine Activity.asks_get_bind fun k same => ?_
        rw [Keeper.backupPath, same]
        have other : some s.id ≠ none := Option.some_ne_none _
        exact (Activity.asks_ask (.backup (Id.parse?_render s.id) other)).bind fun _ =>
          Activity.asks_throw e
      · exact Activity.asks_throw e
    exact (ends_tends_clears (reading.bind asks (inPhase .ready k') same) reaches [s.id]).mono
      fun _ _ cleared => written.trans cleared

end Site

end SnapshotStore
