import SnapshotStore.Proofs.Backup.Upholds
import SnapshotStore.Proofs.Script

/-!
What activities ask for, so that a site keeps what each request of a kind keeps
(`Script.Asks.ends`). Reading and clearing away asks to remove the manifest, its temporary name and
names of identifiers only (`KeeperRequest.Clears`), and the writing of a backup changes nothing but
its own directory and the two names of the manifest (`KeeperRequest.Saves`).
-/

namespace SnapshotStore

/-- What each request of a kind keeps is kept by a script that asks for nothing else. -/
theorem Script.Asks.ends {α : Type} {p : Script keeperInterface α} {R : KeeperRequest → Prop}
    {Q : α → Prop} {J : Site → Prop} {s : Site} (h : p.Asks R Q)
    (keeps : ∀ r s, R r → J s → J (Site.answer r s).2) (holds : J s) :
    Site.Ends (fun a s' => Q a ∧ J s') p s :=
  h.run keeps holds

namespace KeeperRequest

/-- Whether a request is one to the engine or to its partitions. -/
def isOfEngine : KeeperRequest → Bool
  | .openPartition _ | .removePartition _ | .closeEngine | .call _ _ => true
  | .disk _ | .admitWrite _ | .admitRead _ | .freshId | .now => false

/-- The requests by which a keeper of a directory reads backups and clears all of them away, or all
but one. -/
inductive Clears (dir : Path) (keep : Option Id) : KeeperRequest → Prop where
  | read (path : Path) : Clears dir keep (.disk (.read path))
  | list (path : Path) : Clears dir keep (.disk (.list path))
  | admitRead (entity : String) : Clears dir keep (.admitRead entity)
  | manifest (all : keep = none) : Clears dir keep (.disk (.removeFile (Place.manifest dir)))
  | temporary (all : keep = none) : Clears dir keep (.disk (.removeFile (Place.temporary dir)))
  | backup {name : String} {id : Id} (parsed : Id.parse? name = some id) (stale : some id ≠ keep) :
    Clears dir keep (.disk (.removeTree (dir ++ [name])))

/-- Who clears all backups away but one clears away no more than who clears away all. -/
theorem Clears.all {dir : Path} {keep : Option Id} {r : KeeperRequest} (h : r.Clears dir keep) :
    r.Clears dir none := by
  cases h with
  | read path => exact .read path
  | list path => exact .list path
  | admitRead entity => exact .admitRead entity
  | manifest all => exact .manifest rfl
  | temporary all => exact .temporary rfl
  | backup parsed stale => exact .backup parsed nofun

/-- The requests by which a keeper of a directory writes the backup of an identifier. -/
inductive Saves (dir : Path) (id : Id) : KeeperRequest → Prop where
  | make : Saves dir id (.disk (.makeDirectories (Place.backup dir id)))
  | snapshot (entity : String) (content : Bytes) :
    Saves dir id (.disk (.write (Place.snapshot dir id entity) content))
  | manifest (content : Bytes) : Saves dir id (.disk (.write (Place.temporary dir) content))
  | commit : Saves dir id (.disk (.rename (Place.temporary dir) (Place.manifest dir)))
  | undo : Saves dir id (.disk (.removeFile (Place.temporary dir)))
  | sync (path : Path) : Saves dir id (.disk (.sync path))
  | engine {r : KeeperRequest} (h : r.isOfEngine = true) : Saves dir id r
  | admitWrite (entity : String) : Saves dir id (.admitWrite entity)
  | now : Saves dir id .now

end KeeperRequest

namespace Activity

open Keeper

variable {ε δ α β : Type} {R : KeeperRequest → Prop} {dir : Path}

/-- Whether the requests of an activity of the keepers of a directory are of a kind. -/
def Asks (R : KeeperRequest → Prop) (dir : Path) (body : Activity ε α) : Prop :=
  ∀ k : Keeper, k.directory = dir → (body.script k).Asks R fun r => r.2.directory = dir

/-! ## Rules -/

theorem asks_pure (a : α) : Asks R dir (pure a : Activity ε α) := fun _ same => same

theorem asks_throw (e : ε) : Asks R dir (throw e : Activity ε α) := fun _ same => same

theorem asks_ofExcept (wrap : δ → ε) (r : Except δ α) : Asks R dir (ofExcept wrap r) :=
  fun _ same => same

theorem asks_get_bind {f : Keeper → Activity ε β}
    (next : ∀ k : Keeper, k.directory = dir → Asks R dir (f k)) : Asks R dir (get >>= f) :=
  fun k same => next k same k same

theorem asks_ask {r : KeeperRequest} (h : R r) : Asks R dir (ask r : Activity ε r.Reply) :=
  fun _ same => ⟨h, fun _ => same⟩

theorem asks_change (f : Keeper → Keeper) (h : ∀ k, (f k).directory = k.directory) :
    Asks R dir (change f : Activity ε Unit) :=
  fun k same => (h k).trans same

theorem Asks.bind {body : Activity ε α} {f : α → Activity ε β} (h : Asks R dir body)
    (next : ∀ a, Asks R dir (f a)) : Asks R dir (body >>= f) := by
  intro k same
  rw [script_bind]
  refine (h k same).bind ?_
  rintro ⟨result, k'⟩ same'
  cases result with
  | ok a => exact next a k' same'
  | error e => exact same'

theorem asks_disk {c : DiskCall} (h : R (.disk c)) : Asks R dir (disk c) :=
  (asks_ask h).bind fun _ => asks_ofExcept _ _

theorem Asks.outcome {body : Activity δ α} (h : Asks R dir body) :
    Asks R dir (outcome body : Activity ε (Except δ α)) := by
  intro k same
  rw [← bind_pure (Activity.outcome body), script_outcome_bind]
  exact (h k same).bind fun _ same' => same'

theorem Asks.wrapping {wrap : δ → ε} {body : Activity δ α} (h : Asks R dir body) :
    Asks R dir (wrapping wrap body) :=
  h.outcome.bind fun _ => asks_ofExcept _ _

/-! ## Reading and clearing away -/

section Clearing

variable {keep : Option Id} (clears : ∀ r, KeeperRequest.Clears dir keep r → R r)

include clears

theorem asks_loadManifest : Asks R dir loadManifest :=
  asks_get_bind fun _ _ => (asks_ask (clears _ (.read _))).bind fun _ => asks_ofExcept _ _

theorem asks_restorable : Asks R dir restorable := by
  refine (asks_loadManifest clears).bind fun found => ?_
  cases found with
  | none => exact asks_pure _
  | some manifest =>
    dsimp only
    cases manifest.latest? with
    | none => exact asks_pure _
    | some record =>
      refine asks_get_bind fun k _ => ?_
      split
      · exact asks_pure _
      · exact asks_throw _

theorem asks_readSnapshot (id : Id) (entity : String) : Asks R dir (readSnapshot id entity) :=
  asks_get_bind fun _ _ => (asks_ask (clears _ (.admitRead _))).bind fun _ =>
    (asks_ofExcept _ _).bind fun _ => (asks_ask (clears _ (.read _))).bind fun _ =>
      asks_ofExcept _ _

theorem asks_isReferenced (id : Id) : Asks R dir (isReferenced id) := by
  refine (asks_loadManifest clears).outcome.bind fun result => ?_
  split
  · exact asks_pure _
  · exact asks_pure _

theorem asks_removeStale (names : List String) :
    Asks R dir (removeStale keep names) := by
  induction names with
  | nil => exact asks_pure _
  | cons name names ih =>
    rw [removeStale]
    cases parsed : Id.parse? name with
    | none => exact ih
    | some id =>
      simp only
      split
      · rename_i stale
        refine asks_get_bind fun k same => ?_
        rw [same]
        exact (asks_ask (clears _ (.backup parsed stale))).bind fun _ => ih
      · exact ih

theorem asks_clearStale : Asks R dir (clearStale keep) := by
  refine asks_get_bind fun k _ => (asks_ask (clears _ (.list _))).bind fun listing => ?_
  cases listing with
  | ok names => exact asks_removeStale clears _
  | error fault => exact asks_pure _

end Clearing

theorem asks_clear (clears : ∀ r, KeeperRequest.Clears dir none r → R r) :
    Asks R dir (do
      let k ← get
      let _ ← ask (.disk (.removeFile (Place.manifest k.directory)))
      let _ ← ask (.disk (.removeFile (Place.temporary k.directory)))
      clearStale none : Activity StoreError Unit) := by
  refine asks_get_bind fun k same => ?_
  rw [same]
  refine (asks_ask (clears _ (.manifest rfl))).bind fun _ => ?_
  exact (asks_ask (clears _ (.temporary rfl))).bind fun _ => asks_clearStale clears

/-! ## Partitions and restoring -/

section Restoring

variable (engine : ∀ r, KeeperRequest.isOfEngine r = true → R r)

include engine

theorem asks_openPartition (name : String) : Asks R dir (openPartition name) :=
  (asks_ask (engine _ rfl)).bind fun _ => (asks_ofExcept _ _).bind fun _ =>
    (asks_change (track name) fun _ => rfl).bind fun _ => asks_pure _

theorem asks_removePartition (name : String) : Asks R dir (removePartition name) :=
  (asks_ask (engine _ rfl)).bind fun _ => (asks_ofExcept _ _).bind fun _ =>
    asks_change (untrack name) fun _ => rfl

theorem asks_loadEntries (partition : Nat) (entries : List Entry) :
    Asks R dir (loadEntries partition entries) := by
  induction entries with
  | nil => exact asks_pure _
  | cons entry entries ih =>
    exact (asks_ask (engine _ rfl)).bind fun _ => (asks_ofExcept _ _).bind fun _ => ih

theorem asks_discardStores (names : List String) : Asks R dir (discardStores names) := by
  induction names with
  | nil => exact asks_pure _
  | cons name names ih =>
    exact (asks_ask (engine _ rfl)).bind fun _ =>
      (asks_change (untrack name) fun _ => rfl).bind fun _ => ih

variable (clears : ∀ r, KeeperRequest.Clears dir none r → R r)

include clears

theorem asks_restoreStores (id : Id) (names : List String) :
    Asks R dir (restoreStores id names) := by
  induction names with
  | nil => exact asks_pure _
  | cons name names ih =>
    refine (asks_readSnapshot clears id name).wrapping.outcome.bind fun reading => ?_
    cases reading with
    | error e => exact asks_pure _
    | ok entries =>
      refine (asks_ask (engine _ rfl)).bind fun opened => ?_
      cases opened with
      | error e => exact asks_pure _
      | ok partition =>
        refine (asks_loadEntries engine partition entries).wrapping.outcome.bind fun loading => ?_
        cases loading with
        | error e => exact asks_pure _
        | ok _ =>
          refine (asks_change (track name) fun _ => rfl).bind fun _ => ih.bind fun rest => ?_
          exact asks_pure _

theorem asks_discard (names : List String) : Asks R dir (discard names) :=
  (asks_discardStores engine names).bind fun _ => asks_clear clears

theorem asks_restore : Asks R dir restore := by
  refine (asks_restorable clears).outcome.bind fun found => ?_
  cases found with
  | error e => exact asks_discard engine clears []
  | ok found =>
    cases found with
    | none => exact asks_pure _
    | some record =>
      refine (asks_restoreStores engine clears record.id record.stores).bind fun ended => ?_
      obtain ⟨names, result⟩ := ended
      cases result with
      | ok _ => exact asks_pure _
      | error e => exact asks_discard engine clears names

end Restoring

/-! ## Writing -/

section Writing

variable {id : Id} (saves : ∀ r, KeeperRequest.Saves dir id r → R r)

include saves

theorem asks_readPages (partition batchSize pages : Nat) (start : Option Bytes) :
    Asks R dir (readPages partition batchSize pages start) := by
  induction pages generalizing start with
  | zero => exact asks_throw _
  | succ pages ih =>
    refine (asks_ask (saves _ (.engine rfl))).bind fun _ => (asks_ofExcept _ _).bind fun page => ?_
    split
    · exact asks_pure _
    · exact (ih _).bind fun _ => asks_pure _

theorem asks_readAll (pages : Nat) (name : String) : Asks R dir (readAll pages name) :=
  asks_get_bind fun _ _ => (asks_ask (saves _ (.engine rfl))).bind fun _ =>
    (asks_ofExcept _ _).bind fun _ => asks_readPages saves _ _ _ _

theorem asks_writeSnapshot (entity : String) (entries : List Entry) :
    Asks R dir (writeSnapshot id entity entries) := by
  refine asks_get_bind fun k same => (asks_ask (saves _ (.admitWrite _))).bind fun _ => ?_
  rw [same]
  exact (asks_ofExcept _ _).bind fun _ => asks_disk (saves _ (.snapshot _ _))

theorem asks_writeSnapshots (pages : Nat) (names : List String) :
    Asks R dir (writeSnapshots pages id names) := by
  induction names with
  | nil => exact asks_pure _
  | cons name names ih =>
    exact ((asks_readAll saves pages name).bind fun _ =>
      asks_writeSnapshot saves _ _).wrapping.bind fun _ => ih

theorem asks_saveManifest (manifest : Manifest) : Asks R dir (saveManifest manifest) := by
  refine asks_get_bind fun k same => ?_
  rw [same]
  refine ((asks_disk (saves _ (.manifest _))).bind fun _ =>
    asks_disk (saves _ .commit)).outcome.bind fun result => ?_
  cases result with
  | ok _ => exact asks_disk (saves _ (.sync _))
  | error e => exact (asks_ask (saves _ .undo)).bind fun _ => asks_throw e

theorem asks_writeBackup (pages : Nat) : Asks R dir (writeBackup pages id) := by
  refine asks_get_bind fun k same => ?_
  rw [Keeper.backupPath, same]
  refine (asks_disk (saves _ .make)).bind fun _ => ?_
  refine (asks_writeSnapshots saves pages _).bind fun _ => ?_
  refine (asks_disk (saves _ (.sync _))).bind fun _ => ?_
  refine (asks_ask (saves _ .now)).bind fun _ => ?_
  exact (asks_saveManifest saves _).bind fun _ => asks_pure _

end Writing

end Activity

end SnapshotStore
