import SnapshotStore.Proofs.Backup.Upholds
import SnapshotStore.Proofs.Engine

/-!
Activities that leave their keeper as it is and keep a condition on the engine (`Activity.Leaves`),
whatever fails. Requests to the disk and the codec keep any condition, and so does the reading of
pages, so that for most activities of a keeper the rules of sequence are all that is needed.
-/

namespace SnapshotStore

/-- What a request does to the engine unless it meets a fault. -/
def KeeperRequest.engineAfter : KeeperRequest → Engine → Engine
  | .openPartition name, e => (e.openPartition name).2
  | .removePartition name, e => (e.removePartition name).2
  | .closeEngine, e => e.close
  | .call id c, e => (e.call id c).2
  | .disk _, e | .admitWrite _, e | .admitRead _, e | .freshId, e | .now, e => e

theorem Site.engine_answer (r : KeeperRequest) (s : Site) :
    (answer r s).2.engine = s.engine ∨ (answer r s).2.engine = r.engineAfter s.engine := by
  cases r with
  | disk c =>
    left
    rcases s.onDisk_cases c with ⟨_, _, done, placed⟩ | ⟨_, done, placed⟩ <;>
      · rw [answer, done]
        exact placed.engine
  | openPartition _ | removePartition _ | closeEngine | call _ _ =>
    rw [answer, onEngine]
    cases s.engineFaults.headD none with
    | some e => exact .inl rfl
    | none => exact .inr rfl
  | admitWrite _ | admitRead _ | freshId | now => exact .inl rfl

/-- Calls on partitions register and give up no name. -/
theorem Site.registered_call (id : PartitionId) (c : Call) (s : Site) :
    (answer (.call id c) s).2.engine.registered = s.engine.registered := by
  rcases s.engine_answer (.call id c) with same | done
  · rw [same]
  · rw [done]
    rfl

namespace Activity

open Keeper

variable {ε δ α β : Type} {I : Engine → Prop}

/-- Whether an activity leaves its keeper and keeps a condition on the engine. -/
def Leaves (I : Engine → Prop) (body : Activity ε α) : Prop :=
  ∀ k s, I s.engine → Site.Ends (fun r s' => r.2 = k ∧ I s'.engine) (body.script k) s

/-! ## Rules -/

theorem leaves_pure (a : α) : Leaves I (pure a : Activity ε α) := fun _ _ holds => ⟨rfl, holds⟩

theorem leaves_throw (e : ε) : Leaves I (throw e : Activity ε α) := fun _ _ holds => ⟨rfl, holds⟩

theorem leaves_get : Leaves I (get : Activity ε Keeper) := fun _ _ holds => ⟨rfl, holds⟩

theorem leaves_ofExcept (wrap : δ → ε) (r : Except δ α) : Leaves I (ofExcept wrap r) :=
  fun _ _ holds => ⟨rfl, holds⟩

theorem Leaves.bind {body : Activity ε α} {f : α → Activity ε β} (h : Leaves I body)
    (next : ∀ a, Leaves I (f a)) : Leaves I (body >>= f) := by
  intro k s holds
  rw [script_bind]
  refine (h k s holds).bind ?_
  rintro ⟨result, _⟩ s' ⟨rfl, holds'⟩
  cases result with
  | ok a => exact next a _ s' holds'
  | error e => exact Site.ends_done ⟨rfl, holds'⟩

theorem leaves_ask {r : KeeperRequest} (h : ∀ e, I e → I (r.engineAfter e)) :
    Leaves I (ask r : Activity ε r.Reply) := by
  intro k s holds
  have kept : I (Site.answer r s).2.engine := by
    rcases s.engine_answer r with same | done
    · rw [same]
      exact holds
    · rw [done]
      exact h _ holds
  exact Site.ends_ask rfl (Site.ends_done ⟨rfl, kept⟩)

theorem leaves_disk (c : DiskCall) : Leaves I (disk c) :=
  (leaves_ask fun _ holds => holds).bind fun _ => leaves_ofExcept _ _

theorem Leaves.outcome {body : Activity δ α} (h : Leaves I body) :
    Leaves I (outcome body : Activity ε (Except δ α)) := by
  intro k s holds
  rw [← bind_pure (Activity.outcome body), script_outcome_bind]
  refine (h k s holds).bind ?_
  rintro ⟨result, _⟩ s' ⟨rfl, holds'⟩
  exact Site.ends_done ⟨rfl, holds'⟩

theorem Leaves.wrapping {wrap : δ → ε} {body : Activity δ α} (h : Leaves I body) :
    Leaves I (wrapping wrap body) :=
  h.outcome.bind fun _ => leaves_ofExcept _ _

/-! ## Manifests and clearing away -/

theorem leaves_loadManifest : Leaves I loadManifest :=
  leaves_get.bind fun _ => (leaves_ask fun _ holds => holds).bind fun _ => leaves_ofExcept _ _

theorem leaves_saveManifest (manifest : Manifest) : Leaves I (saveManifest manifest) := by
  refine leaves_get.bind fun k => ?_
  refine ((leaves_disk _).bind fun _ => leaves_disk _).outcome.bind fun result => ?_
  cases result with
  | ok _ => exact leaves_disk _
  | error e => exact (leaves_ask fun _ holds => holds).bind fun _ => leaves_throw e

theorem leaves_isReferenced (id : Id) : Leaves I (isReferenced id) := by
  refine leaves_loadManifest.outcome.bind fun result => ?_
  split
  · exact leaves_pure _
  · exact leaves_pure _

theorem leaves_removeStale (keep : Option Id) (names : List String) :
    Leaves I (removeStale keep names) := by
  induction names with
  | nil => exact leaves_pure _
  | cons name names ih =>
    rw [removeStale]
    cases Id.parse? name with
    | none => exact ih
    | some id =>
      simp only
      split
      · exact leaves_get.bind fun _ => (leaves_ask fun _ holds => holds).bind fun _ => ih
      · exact ih

theorem leaves_clearStale (keep : Option Id) : Leaves I (clearStale keep) := by
  refine leaves_get.bind fun k => (leaves_ask fun _ holds => holds).bind fun listing => ?_
  cases listing with
  | ok names => exact leaves_removeStale keep _
  | error fault => exact leaves_pure _

theorem leaves_clear :
    Leaves I (do
      let k ← get
      let _ ← ask (.disk (.removeFile (Place.manifest k.directory)))
      let _ ← ask (.disk (.removeFile (Place.temporary k.directory)))
      clearStale none : Activity StoreError Unit) :=
  leaves_get.bind fun _ => (leaves_ask fun _ holds => holds).bind fun _ =>
    (leaves_ask fun _ holds => holds).bind fun _ => leaves_clearStale none

/-! ## Reading and writing partitions -/

theorem leaves_readPages (partition batchSize pages : Nat) (start : Option Bytes) :
    Leaves I (readPages partition batchSize pages start) := by
  induction pages generalizing start with
  | zero => exact leaves_throw _
  | succ pages ih =>
    have paging : Leaves I (ask (ε := StoreError) (.call partition (.page start batchSize))) :=
      leaves_ask fun e holds => by
        rw [KeeperRequest.engineAfter, Engine.call_page]
        exact holds
    refine paging.bind fun _ => (leaves_ofExcept _ _).bind fun page => ?_
    split
    · exact leaves_pure _
    · exact (ih _).bind fun _ => leaves_pure _

theorem leaves_readAll {pages : Nat} {name : String}
    (opens : ∀ e, I e → I (e.openPartition name).2) : Leaves I (readAll pages name) :=
  leaves_get.bind fun _ => (leaves_ask (r := .openPartition name) opens).bind fun _ =>
    (leaves_ofExcept _ _).bind fun _ => leaves_readPages _ _ _ _

theorem leaves_writeSnapshot (id : Id) (entity : String) (entries : List Entry) :
    Leaves I (writeSnapshot id entity entries) :=
  leaves_get.bind fun _ => (leaves_ask fun _ holds => holds).bind fun _ =>
    (leaves_ofExcept _ _).bind fun _ => leaves_disk _

theorem leaves_writeSnapshots (pages : Nat) (id : Id) {names : List String}
    (opens : ∀ name ∈ names, ∀ e, I e → I (e.openPartition name).2) :
    Leaves I (writeSnapshots pages id names) := by
  induction names with
  | nil => exact leaves_pure _
  | cons name names ih =>
    obtain ⟨here, rest⟩ := List.forall_mem_cons.1 opens
    exact ((leaves_readAll here).bind fun _ => leaves_writeSnapshot _ _ _).wrapping.bind
      fun _ => ih rest

/-- The partitions that are written are those that the keeper tracks. -/
theorem ends_writeBackup {k : Keeper} {s : Site} (pages : Nat) (id : Id) (holds : I s.engine)
    (opens : ∀ name ∈ k.trackedNames, ∀ e, I e → I (e.openPartition name).2) :
    Site.Ends (fun r s' => r.2 = k ∧ I s'.engine) ((writeBackup pages id).script k) s := by
  rw [writeBackup, script_get_bind]
  refine Leaves.bind (leaves_disk _) (fun _ => ?_) k s holds
  refine (leaves_writeSnapshots pages id opens).bind fun _ => ?_
  refine (leaves_disk _).bind fun _ => ?_
  refine Leaves.bind (leaves_ask (r := .now) fun _ holds => holds) fun _ => ?_
  exact (leaves_saveManifest _).bind fun _ => leaves_pure _

theorem leaves_readSnapshot (id : Id) (entity : String) : Leaves I (readSnapshot id entity) :=
  leaves_get.bind fun _ => (leaves_ask fun _ holds => holds).bind fun _ =>
    (leaves_ofExcept _ _).bind fun _ => (leaves_ask fun _ holds => holds).bind fun _ =>
      leaves_ofExcept _ _

theorem leaves_restorable : Leaves I restorable := by
  refine leaves_loadManifest.bind fun found => ?_
  cases found with
  | none => exact leaves_pure _
  | some manifest =>
    dsimp only
    cases manifest.latest? with
    | none => exact leaves_pure _
    | some record =>
      refine leaves_get.bind fun k => ?_
      split
      · exact leaves_pure _
      · exact leaves_throw _

/-- The putting of entries registers and gives up no name. -/
theorem leaves_loadEntries {registered : OrderedMap String PartitionId} (partition : Nat)
    (entries : List Entry) :
    Leaves (fun e => e.registered = registered) (loadEntries partition entries) := by
  induction entries with
  | nil => exact leaves_pure _
  | cons entry entries ih =>
    have putting : Leaves (fun e => e.registered = registered)
        (ask (ε := StoreError) (.call partition (.put entry.1 entry.2))) :=
      leaves_ask fun _ holds => holds
    exact putting.bind fun _ => (leaves_ofExcept _ _).bind fun _ => ih

end Activity

end SnapshotStore
