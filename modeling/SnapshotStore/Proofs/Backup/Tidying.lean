import SnapshotStore.Proofs.Backup.Edits
import SnapshotStore.Proofs.Backup.Reachable

/-!
What a backup that succeeds leaves. Its directory holds a file for each name that is tracked and
nothing else (`Disk.Stores`), the manifest names it alone (`Disk.Backed`), and no other directory is
named like an identifier (`Disk.Tidy`), whatever stood in the backup directory before
(`Keeper.ends_tidy_snapshot`). Since that asks for nothing where a backup fails, `Activity.Gives`
speaks about activities that succeed only.
-/

namespace SnapshotStore

open Site OrderedMap Disk Keeper

/-! ## What no request changes -/

namespace Site

/-- No request changes the identifier and the time that await a backup, nor brings faults. -/
theorem answer_occasion (r : KeeperRequest) (s : Site) :
    (answer r s).2.id = s.id ∧ (answer r s).2.now = s.now ∧
      (s.diskFaults = [] → (answer r s).2.diskFaults = []) := by
  cases r with
  | disk c =>
    rw [answer, onDisk]
    cases s.diskFaults.headD none <;> exact ⟨rfl, rfl, fun none => congrArg List.tail none⟩
  | openPartition _ | removePartition _ | closeEngine | call _ _ =>
    rw [answer, onEngine]
    cases s.engineFaults.headD none <;> exact ⟨rfl, rfl, fun none => none⟩
  | admitWrite _ | admitRead _ | freshId | now => exact ⟨rfl, rfl, fun none => none⟩

theorem ends_occasion {α : Type} (p : Script keeperInterface α) (s : Site) :
    Ends (fun _ s' => s'.id = s.id ∧ s'.now = s.now ∧ (s.diskFaults = [] → s'.diskFaults = []))
      p s := by
  induction p generalizing s with
  | done a => exact ends_done ⟨rfl, rfl, fun none => none⟩
  | ask r resume ih =>
    obtain ⟨sameId, sameNow, steady⟩ := answer_occasion r s
    refine ends_ask rfl ((ih _ (answer r s).2).mono ?_)
    rintro _ s' ⟨sameId', sameNow', steady'⟩
    exact ⟨sameId'.trans sameId, sameNow'.trans sameNow, steady' ∘ steady⟩

end Site

/-! ## Activities that succeed -/

namespace Activity

variable {ε δ α β : Type} {P : α → Site → Prop} {Q : β → Site → Prop} {k : Keeper} {s s' : Site}

/-- Whether an activity, if it succeeds, leaves its keeper and ends as `P` says. -/
def Gives (P : α → Site → Prop) (body : Activity ε α) (k : Keeper) (s : Site) : Prop :=
  Ends (fun r s' => ∀ a, r.1 = .ok a → r.2 = k ∧ P a s') (body.script k) s

/-- Nothing is asked of an activity that has failed. -/
theorem ends_error {R : Except ε α × Keeper → α → Site → Prop} (e : ε) :
    Ends (fun r s' => ∀ a, r.1 = .ok a → R r a s') (.done (.error e, k)) s := by
  rintro _ ⟨⟩

theorem gives_pure {a : α} (h : P a s) : Gives P (pure a : Activity ε α) k s := by
  rintro _ ⟨⟩
  exact ⟨rfl, h⟩

theorem gives_throw (e : ε) : Gives P (throw e : Activity ε α) k s := ends_error e

theorem gives_get_bind {f : Keeper → Activity ε β} (h : Gives Q (f k) k s) :
    Gives Q (get >>= f) k s := h

theorem gives_ask_bind {r : KeeperRequest} {f : r.Reply → Activity ε β} {reply : r.Reply}
    (answered : answer r s = (reply, s')) (next : Gives Q (f reply) k s') :
    Gives Q (ask r >>= f) k s := by
  rw [Gives, script_ask_bind]
  exact ends_ask answered next

theorem gives_ofExcept_bind {wrap : δ → ε} {r : Except δ α} {f : α → Activity ε β}
    (next : ∀ a, r = .ok a → Gives Q (f a) k s) : Gives Q (ofExcept wrap r >>= f) k s := by
  rw [Gives, script_ofExcept_bind]
  cases r with
  | ok a => exact next a rfl
  | error e => exact ends_error _

theorem gives_disk {c : DiskCall} {P : c.Answer → Site → Prop}
    (next : ∀ a s', answer (.disk c) s = (.ok a, s') → P a s') : Gives P (disk c) k s := by
  rw [Gives, script_disk]
  cases answered : answer (.disk c) s with | mk reply s' =>
  refine ends_ask answered ?_
  cases reply with
  | ok a =>
    refine ends_done ?_
    rintro _ ⟨⟩
    exact ⟨rfl, next a s' answered⟩
  | error fault => exact ends_error _

/-- A call that changes nothing and fails or is done leaves everything but the faults. -/
theorem gives_still {c : DiskCall} {P : c.Answer → Site → Prop} (atOnce : c.atOnce = true)
    (still : (s.disk.call c).2 = s.disk) (next : ∀ a s', Like s s' → P a s') :
    Gives P (disk c) k s := by
  refine gives_disk fun a s' answered => next a s' ?_
  obtain ⟨_, _, settled, like⟩ := answer_still_cases atOnce still
  cases settled.symm.trans answered
  exact like

theorem Gives.bind {body : Activity ε α} {f : α → Activity ε β} (h : Gives P body k s)
    (next : ∀ a s', P a s' → Gives Q (f a) k s') : Gives Q (body >>= f) k s := by
  rw [Gives, script_bind]
  refine Ends.bind h ?_
  rintro ⟨result, k'⟩ s' gives
  cases result with
  | ok a =>
    obtain ⟨rfl, holds⟩ := gives a rfl
    exact next a s' holds
  | error e => exact ends_error _

theorem Gives.wrapping {wrap : δ → ε} {body : Activity δ α} (h : Gives P body k s) :
    Gives P (wrapping wrap body) k s := by
  rw [Gives, script_wrapping]
  refine Ends.bind h ?_
  rintro ⟨result, k'⟩ s' gives
  cases result with
  | ok a => exact ends_done fun _ ended => Except.ok.inj ended ▸ gives a rfl
  | error e => exact ends_error _

theorem Leaves.gives {body : Activity ε α} (h : Leaves (fun _ => True) body) :
    Gives (fun _ _ => True) body k s :=
  (h k s trivial).mono fun _ _ left _ _ => left

end Activity

/-! ## Files -/

namespace Disk

variable {d d' : Disk} {root : Location} {id : Id} {content : String → Bytes} {names : List String}
  {record : BackupRecord}

/-- Whether the directory of an identifier holds a file for each of some names, and nothing else. -/
structure Stores (root : Location) (id : Id) (content : String → Bytes) (names : List String)
    (d : Disk) : Prop where
  directory : d.node? (root ++ [id.render]) = some .directory
  files : ∀ name ∈ names,
    d.node? (root ++ [id.render, FileName.snapshot name]) = some (.file (content name))
  nothingElse : ∀ q node, q ≠ [] → d.node? (root ++ id.render :: q) = some node →
    ∃ name ∈ names, q = [FileName.snapshot name]

theorem Stores.congr (h : Stores root id content names d)
    (same : ∀ q, d'.node? (root ++ id.render :: q) = d.node? (root ++ id.render :: q)) :
    Stores root id content names d' := by
  refine ⟨(same []).trans h.directory, fun name mem => ?_, fun q node below stands => ?_⟩
  · exact (same _).trans (h.files name mem)
  · exact h.nothingElse q node below (same q ▸ stands)

/-- A directory that is made where nothing stood holds nothing. -/
theorem stores_made (vacant : ∀ q, d.node? (root ++ id.render :: q) = none) :
    Stores root id content [] (d.set (root ++ [id.render]) .directory) := by
  refine ⟨?_, fun _ mem => absurd mem List.not_mem_nil, fun q node below stands => ?_⟩
  · rw [node?_set, if_pos rfl]
  · rw [node?_set, if_neg, vacant] at stands
    · cases stands
    · intro same
      exact below (List.cons.inj (List.append_cancel_left same)).2.symm

theorem Stores.set (h : Stores root id content names d) (name : String) :
    Stores root id content (names ++ [name])
      (d.set (root ++ [id.render, FileName.snapshot name]) (.file (content name))) := by
  constructor
  · rw [node?_set, if_neg]
    · exact h.directory
    · intro same
      exact absurd (List.cons.inj (List.append_cancel_left same)).2 (List.cons_ne_nil _ _)
  · intro other mem
    rw [node?_set]
    split
    · rename_i same
      have file := (List.cons.inj (List.cons.inj (List.append_cancel_left same)).2).1
      rw [FileName.snapshot_injective file]
    · rename_i apart
      refine h.files other ((List.mem_append.1 mem).resolve_right fun last => ?_)
      exact apart (by rw [List.mem_singleton.1 last])
  · intro q node below stands
    rw [node?_set] at stands
    split at stands
    · rename_i same
      exact ⟨name, List.mem_append_right _ (List.mem_singleton_self name),
        (List.cons.inj (List.append_cancel_left same)).2.symm⟩
    · obtain ⟨other, mem, same⟩ := h.nothingElse q node below stands
      exact ⟨other, List.mem_append_left _ mem, same⟩

/-- Whether a directory holds the backup of a record, which its manifest names alone. -/
structure Backed (root : Location) (record : BackupRecord) (content : String → Bytes) (d : Disk) :
    Prop where
  manifest : d.node? (root ++ [Manifest.fileName]) = some (.file (Manifest.single record).write)
  temporary : d.node? (root ++ [Manifest.temporaryName]) = none
  stores : Stores root record.id content record.stores d

/-- Whether a directory holds the backup of a record, and no directory of another one. -/
structure Tidy (root : Location) (record : BackupRecord) (content : String → Bytes) (d : Disk) :
    Prop extends Backed root record content d where
  alone : ∀ name id, Id.parse? name = some id → d.node? (root ++ [name]) = some .directory →
    name = record.id.render

/-- Clearing all other backups away leaves a backup. -/
theorem Backed.cleared (h : Backed root record content d)
    (edits : Edits (fun _ => False) (Clearable (some record.id)) root d d') :
    Backed root record content d' := by
  have firm : ∀ name, Id.parse? name = none →
      d'.node? (root ++ [name]) = d.node? (root ++ [name]) := by
    intro name unspelled
    refine edits.same name not_false ?_ []
    rintro (⟨⟨⟩, -⟩ | ⟨id, parsed, -⟩)
    rw [unspelled] at parsed
    cases parsed
  refine ⟨?_, ?_, ?_⟩
  · exact (firm _ (by decide +kernel)).trans h.manifest
  · exact (firm _ (by decide +kernel)).trans h.temporary
  refine h.stores.congr (edits.same record.id.render not_false ?_)
  rintro (⟨⟨⟩, -⟩ | ⟨id, parsed, other⟩)
  rw [Id.parse?_render] at parsed
  exact other parsed.symm

/-- A disk after a manifest was written under its temporary name and moved to its place. -/
def withManifest (root : Location) (content : Bytes) (d : Disk) : Disk :=
  ((d.set (root ++ [Manifest.temporaryName]) (.file content)).erase
    (root ++ [Manifest.temporaryName])).set (root ++ [Manifest.fileName]) (.file content)

theorem withManifest_other {name : String} (h : ¬IsOfManifest name) (content : Bytes)
    (q : List String) :
    (d.withManifest root content).node? (root ++ name :: q) = d.node? (root ++ name :: q) := by
  have apart : ∀ {other : String}, IsOfManifest other → root ++ [other] ≠ root ++ name :: q := by
    intro other isOfManifest same
    exact h ((List.cons.inj (List.append_cancel_left same)).1 ▸ isOfManifest)
  rw [withManifest, node?_set, if_neg (apart (.inl rfl)), node?_erase, if_neg (apart (.inr rfl)),
    node?_set, if_neg (apart (.inr rfl))]

/-- The manifest completes a backup. -/
theorem Stores.withManifest (h : Stores root record.id content record.stores d) :
    Backed root record content (d.withManifest root (Manifest.single record).write) := by
  have apart : root ++ [Manifest.fileName] ≠ root ++ [Manifest.temporaryName] := by
    intro same
    exact temporary_ne_manifest (List.cons.inj (List.append_cancel_left same)).1.symm
  refine ⟨?_, ?_, h.congr fun q => withManifest_other ?_ _ q⟩
  · rw [Disk.withManifest, node?_set, if_pos rfl]
  · rw [Disk.withManifest, node?_set, if_neg apart, node?_erase, if_pos rfl]
  · obtain ⟨manifest, temporary⟩ := ne_of_parse? (Id.parse?_render record.id)
    exact not_or.2 ⟨manifest, temporary⟩

end Disk

/-! ## Writing a backup -/

namespace Keeper

open Activity

/-- What a keeper writes to the file of an entity. -/
def spelling (k : Keeper) (e : Engine) (name : String) : Bytes :=
  k.format.write (e.entriesOf name).toList

variable {k : Keeper} {s₀ s s' : Site} {root : Location} {done : List String}

/-- A site where some of the files of a backup are written. -/
structure Filled (k : Keeper) (s₀ : Site) (root : Location) (done : List String) (s : Site) :
    Prop where
  reaches : s.disk.Reaches k.directory root
  engine : s.engine = s₀.engine
  now : s.now = s₀.now
  stores : s.disk.Stores root s₀.id (k.spelling s₀.engine) done

theorem Filled.like (h : Filled k s₀ root done s) (like : Like s s') :
    Filled k s₀ root done s' := by
  obtain ⟨reaches, engine, now, stores⟩ := h
  exact ⟨like.disk ▸ reaches, like.engine.trans engine, like.now.trans now, like.disk ▸ stores⟩

/-- A partition that is registered is read as it is. -/
theorem gives_readAll {name : String} (known : (s.engine.registered.get? name).isSome = true)
    (pages : Nat) :
    Gives (fun entries s' => Like s s' ∧ entries = (s.engine.entriesOf name).toList)
      (readAll pages name) k s := by
  obtain ⟨id, registered⟩ := Option.isSome_iff_exists.1 known
  refine gives_get_bind ?_
  rcases s.onEngine_cases fun e => e.openPartition name with
    ⟨e, s₁, answered, like⟩ | ⟨s₁, answered, engaged⟩
  · exact gives_ask_bind answered (gives_ofExcept_bind fun _ failed => by cases failed)
  rw [Engine.openPartition_of_registered known] at engaged
  refine gives_ask_bind answered (gives_ofExcept_bind fun partition opened => ?_)
  have same : partition = id := by
    rw [Engine.openPartition, registered] at opened
    split at opened
    · cases opened
    · exact (Except.ok.inj opened).symm
  have read : Upholds (fun _ => False) (fun _ _ => True) _
      ((readPages partition k.batchSize pages none).script k) false s₁ :=
    upholds_readPages k partition k.batchSize pages none fun _ _ => trivial
  refine (read.ends fun _ _ => not_false).mono ?_
  rintro ⟨result, _⟩ s₂ ⟨_, -, rfl, -, like, spells⟩ entries ended
  refine ⟨rfl, engaged.like.trans like, ?_⟩
  rw [spells entries ended, engaged.engine, same, Engine.entriesOf_registered registered]
  rfl

theorem gives_writeSnapshot (filled : Filled k s₀ root done s) (name : String) :
    Gives (fun _ => Filled k s₀ root (done ++ [name]))
      (writeSnapshot s₀.id name (s₀.engine.entriesOf name).toList) k s := by
  refine gives_get_bind (gives_ask_bind rfl (gives_ofExcept_bind fun _ _ => ?_))
  replace filled := filled.like s.like_onCodec
  refine gives_disk (c := .write _ _) fun _ s₂ answered => ?_
  rw [snapshot_eq] at answered
  rcases answer_write_cases filled.reaches.leadsTo.only (fun _ => isName_of_mem_snapshot)
      (k.spelling s₀.engine name) with
    ⟨fault, _, failed, -⟩ | ⟨_, part, _, succeeded, placed, -, whole⟩
  · cases failed.symm.trans answered
  · cases succeeded.symm.trans answered
    obtain ⟨engine, disk, -, now⟩ := placed
    rw [whole rfl] at disk
    refine ⟨?_, engine.trans filled.engine, now.trans filled.now, disk ▸ filled.stores.set name⟩
    rw [disk]
    exact filled.reaches.of_sameOutside (changesOnly_set _ _ _).sameOutside

theorem gives_writeSnapshots (filled : Filled k s₀ root done s) (pages : Nat) {names : List String}
    (known : ∀ name ∈ names, (s₀.engine.registered.get? name).isSome = true) :
    Gives (fun _ => Filled k s₀ root (done ++ names)) (writeSnapshots pages s₀.id names) k s := by
  induction names generalizing done s with
  | nil =>
    rw [List.append_nil]
    exact gives_pure filled
  | cons name names ih =>
    obtain ⟨here, known⟩ := List.forall_mem_cons.1 known
    rw [← filled.engine] at here
    have one : Gives (fun _ => Filled k s₀ root (done ++ [name]))
        (do
          let entries ← readAll pages name
          writeSnapshot s₀.id name entries) k s := by
      refine (gives_readAll here pages).bind ?_
      rintro _ s₁ ⟨like, rfl⟩
      rw [filled.engine]
      exact gives_writeSnapshot (filled.like like) name
    rw [List.append_cons]
    exact one.wrapping.bind fun _ s₁ filled => ih filled known

/-- The manifest is written under its temporary name and goes to its place from there. -/
theorem gives_saveManifest (reaches : s.disk.Reaches k.directory root) (manifest : Manifest) :
    Gives (fun _ s' => s'.disk = s.disk.withManifest root manifest.write) (saveManifest manifest)
      k s := by
  have isTemporary : ∀ n ∈ [] ++ [Manifest.temporaryName], IsName n := by
    simpa using isName_temporary
  have writing : Gives (fun _ s' => s.disk.Takes k.directory root [] Manifest.temporaryName ∧
      s'.disk = s.disk.set (root ++ [Manifest.temporaryName]) (.file manifest.write))
      (disk (.write (Place.temporary k.directory) manifest.write)) k s := by
    refine gives_disk fun _ s₁ answered => ?_
    rcases answer_write_cases reaches.leadsTo.only isTemporary manifest.write with
      ⟨fault, _, failed, -⟩ | ⟨_, part, _, succeeded, placed, takes, whole⟩
    · cases failed.symm.trans answered
    · cases succeeded.symm.trans answered
      refine ⟨takes, ?_⟩
      rw [placed.disk, whole rfl]
      rfl
  have commit := writing.bind (f := fun _ =>
    disk (.rename (Place.temporary k.directory) (Place.manifest k.directory)))
    (Q := fun _ s' => s'.disk = s.disk.withManifest root manifest.write) ?_
  · rw [saveManifest]
    refine gives_get_bind ?_
    rw [Gives, script_outcome_bind]
    refine Ends.bind commit ?_
    rintro ⟨result, k'⟩ s' gives
    cases result with
    | ok _ =>
      obtain ⟨left, saved⟩ := gives () rfl
      obtain rfl : k' = k := left
      have lasting : Gives (fun _ s'' => Like s' s'') (disk (.sync k'.directory)) k' s' :=
        gives_still rfl (s'.disk.disk_of_sync _) fun _ _ like => like
      exact lasting.mono fun _ _ gives a ended =>
        ⟨(gives a ended).1, (gives a ended).2.disk.trans saved⟩
    | error e =>
      show Ends _ (script (ask _ >>= _) k') s'
      rw [script_ask_bind]
      exact ends_ask rfl (ends_error _)
  · rintro _ s₁ ⟨takes, written⟩
    have changes := changesOnly_set s.disk (root ++ [Manifest.temporaryName])
      (.file manifest.write)
    have reaches₁ : s₁.disk.Reaches k.directory root :=
      written ▸ reaches.of_sameOutside changes.sameOutside
    have found := find_set isTemporary takes manifest.write
    simp only [List.nil_append] at found
    rw [withManifest, ← written]
    rw [← written] at found
    refine gives_disk fun _ s₂ answered => ?_
    rcases answer_rename_cases reaches₁.leadsTo.only isName_temporary isName_manifest with
      ⟨fault, _, failed, -⟩ | ⟨content, _, succeeded, placed, found', -⟩
    · cases failed.symm.trans answered
    · cases succeeded.symm.trans answered
      rw [found] at found'
      cases found'
      exact placed.disk

/-- A backup that is written is the backup that the manifest names alone. -/
theorem gives_writeBackup (reaches : s.disk.Reaches k.directory root) (known : k.Known s.engine)
    (vacant : ∀ q, s.disk.node? (root ++ s.id.render :: q) = none) (pages : Nat) :
    Gives (fun record s' => record = k.record s ∧ Backed root record (k.spelling s.engine) s'.disk)
      (writeBackup pages s.id) k s := by
  have made : Gives (fun _ => Filled k s root []) (disk (.makeDirectories (k.backupPath s.id)))
      k s := by
    refine gives_disk fun _ s₁ answered => ?_
    have atOnce : (DiskCall.makeDirectories (k.backupPath s.id)).atOnce = true := rfl
    rcases s.onDisk_atOnce_cases atOnce with ⟨fault, _, failed, -⟩ | ⟨_, done, placed⟩
    · cases failed.symm.trans answered
    have succeeded : (s.disk.call (.makeDirectories (k.backupPath s.id))).1 = .ok () :=
      (Prod.mk.inj (done.symm.trans answered)).1
    obtain rfl := (Prod.mk.inj (done.symm.trans answered)).2
    obtain ⟨engine, disk, -, now⟩ := placed
    rcases makeDirectories_cases reaches.leadsTo (isName_render s.id) with
      ⟨fault, failed⟩ | ⟨-, ⟨stands, -⟩ | ⟨-, making⟩⟩
    · rw [backupPath, Place.backup, failed] at succeeded
      cases succeeded
    · rw [vacant []] at stands
      cases stands
    · rw [backupPath, Place.backup, making] at disk
      refine ⟨?_, engine, now, disk ▸ stores_made vacant⟩
      rw [disk]
      exact reaches.of_sameOutside (changesOnly_set _ _ _).sameOutside
  refine gives_get_bind (made.bind fun _ s₁ filled => ?_)
  have registered : ∀ name ∈ k.trackedNames, (s.engine.registered.get? name).isSome = true :=
    fun name tracked => known.registered tracked
  refine (gives_writeSnapshots filled pages registered).bind fun _ s₂ filled => ?_
  refine (gives_still rfl (s₂.disk.disk_of_sync _) fun _ _ like => filled.like like).bind ?_
  intro _ s₃ filled
  refine gives_ask_bind rfl ((gives_saveManifest filled.reaches _).bind fun _ s₄ saved => ?_)
  refine gives_pure ⟨?_, ?_⟩
  · rw [filled.now]
    rfl
  · rw [saved]
    exact filled.stores.withManifest

/-! ## Backups that succeed -/

/-- A backup is alone once the others are cleared away, where no name of its identifier stood for
anything before. -/
theorem tidy_of_swept {d written cleared : Disk} {record : BackupRecord}
    {content : String → Bytes} (backed : Backed root record content written)
    (fresh : ∀ name, Id.parse? name = some record.id → ∀ q, d.node? (root ++ name :: q) = none)
    (writing : Tended [record.id] root d written)
    (clearing : Edits (fun _ => False) (Clearable (some record.id)) root written cleared)
    (swept : ∀ name, Swept root (some record.id) [name] cleared) :
    Tidy root record content cleared := by
  refine ⟨backed.cleared clearing, fun name id parsed stands => ?_⟩
  by_cases same : some id = some record.id
  · -- No other name of the identifier is cleared away, but none was written either.
    obtain rfl := Option.some.inj same
    by_contra other
    have unwritten : ¬Writable [record.id] name := not_writable parsed fun _ => other
    have before := writing.less name unwritten [] _ (clearing.less name not_false [] _ stands)
    rw [fresh name parsed []] at before
    cases before
  · exact absurd stands (swept name name (List.mem_singleton_self name) id parsed same)

/-- A backup that succeeds leaves no other one, where its identifier was not used. -/
theorem ends_tidy_snapshot (serves : s.disk.Serves k.directory root) (steady : s.diskFaults = [])
    (known : k.Known s.engine)
    (fresh : ∀ name, Id.parse? name = some s.id → ∀ q, s.disk.node? (root ++ name :: q) = none)
    (pages : Nat) :
    Ends (fun r s' => ∀ record, r.1 = .ok record →
        Tidy root (k.record s) (k.spelling s.engine) s'.disk)
      ((Keeper.snapshot pages).script k) s := by
  rw [Keeper.snapshot, script_get_bind]
  split
  · exact ends_error _
  show Ends _ (script (change (inPhase .backingUp) >>= _) k) _
  rw [script_change_bind, script_ask_bind]
  refine ends_ask rfl ?_
  rw [script_outcome_bind]
  have vacant := fresh s.id.render (Id.parse?_render s.id)
  have gives := gives_writeBackup (k := inPhase .backingUp k) serves.reaches known vacant pages
  have writing := ends_tends_writeBackup (k := inPhase .backingUp k) serves.reaches pages
  have both : Ends (fun r s' => (∀ record, r.1 = .ok record → r.2 = inPhase .backingUp k ∧
        Backed root (k.record s) (k.spelling s.engine) s'.disk) ∧
        Tended [s.id] root s.disk s'.disk ∧ s'.diskFaults = [])
      ((writeBackup pages s.id).script (inPhase .backingUp k)) s := by
    refine ⟨fun record ended => ?_, writing.2, (ends_occasion _ s).2.2 steady⟩
    obtain ⟨left, rfl, backed⟩ := gives record ended
    exact ⟨left, backed⟩
  refine both.bind ?_
  rintro ⟨result, k'⟩ s₁ ⟨succeeded, written, steady₁⟩
  rw [script_change_bind]
  cases result with
  | ok record =>
    obtain ⟨rfl, backed⟩ := succeeded record rfl
    have serves₁ := serves.of_sameOutside written.outside
    have asks := asks_clearStale (fun r (clears : r.Clears k.directory (some s.id)) => clears)
      (inPhase .ready k) rfl
    have edits := ends_edits asks serves₁.reaches fun _ _ leads clears =>
      edits_of_clears leads.only clears
    have swept := meets_clearStale (k := inPhase .ready k) steady₁ (some s.id)
    have clearing : Ends (fun _ s' =>
        Edits (fun _ => False) (Clearable (some s.id)) root s₁.disk s'.disk ∧
        ∀ name, Swept root (some s.id) [name] s'.disk)
        ((clearStale (some s.id)).script (inPhase .ready k)) s₁ :=
      ⟨edits.2, swept.2.2 root serves₁⟩
    rw [script_bind]
    refine clearing.bind ?_
    rintro ⟨result, _⟩ s' ⟨clearing, swept⟩
    cases result with
    | ok _ => exact ends_done fun _ _ => tidy_of_swept backed fresh written clearing swept
    | error e => exact ends_error _
  | error e =>
    -- Whatever is found and removed then, the error is thrown again.
    have fails : Gives (fun _ _ => False) (do
        if ¬ (← isReferenced s.id) then
          let _ ← ask (.disk (.removeTree ((← get).backupPath s.id)))
        throw e : Activity StoreError BackupRecord) (inPhase .ready k') s₁ := by
      refine (leaves_isReferenced s.id).gives.bind fun found _ _ => ?_
      dsimp only
      split
      · exact gives_get_bind (gives_ask_bind rfl (gives_throw e))
      · exact gives_throw e
    exact Ends.mono fails fun _ _ none record ended => (none record ended).2.elim

end Keeper

end SnapshotStore
