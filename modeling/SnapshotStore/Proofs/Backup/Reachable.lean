import SnapshotStore.Proofs.Backup.Leaves
import SnapshotStore.Proofs.Backup.Lives

/-!
The standpoints that a keeper can come to: it is created over a new engine, which is used through
it only, while whatever else may happen to the disk and may fail. How a deed changes what is tracked
and what is registered is said once (`Keeper.Bookkeeping`). Each name that is tracked is registered
(`Reachable.known`), so that the partitions are there which a backup is to read.
-/

namespace SnapshotStore

open Site OrderedMap Activity

/-- Whether an engine registers each name that a keeper tracks. -/
def Keeper.Known (k : Keeper) (e : Engine) : Prop :=
  ∀ name, (k.tracked.get? name).isSome = true → (e.registered.get? name).isSome = true

namespace Keeper

variable {k : Keeper} {e e' : Engine} {s : Site} {name : String}

theorem Known.mono (h : k.Known e)
    (grows : ∀ name, (e.registered.get? name).isSome = true →
      (e'.registered.get? name).isSome = true) : k.Known e' :=
  fun name tracked => grows name (h name tracked)

theorem Known.of_registered (h : k.Known e) (same : e'.registered = e.registered) : k.Known e' :=
  h.mono fun _ registered => same ▸ registered

theorem Known.track (h : k.Known e) (registered : (e.registered.get? name).isSome = true) :
    (track name k).Known e := by
  intro other tracked
  rw [Keeper.track, get?_insert] at tracked
  split at tracked
  · rename_i same
    rw [← same]
    exact registered
  · exact h other tracked

theorem Known.untrack (h : k.Known e)
    (same : ∀ other, name ≠ other → e'.registered.get? other = e.registered.get? other) :
    (untrack name k).Known e' := by
  intro other tracked
  rw [Keeper.untrack, get?_erase] at tracked
  split at tracked
  · cases tracked
  · rename_i apart
    rw [same other apart]
    exact h other tracked

theorem Known.registered (h : k.Known e) (tracked : name ∈ k.trackedNames) :
    (e.registered.get? name).isSome = true := by
  obtain ⟨binding, mem, rfl⟩ := List.mem_map.1 tracked
  refine h binding.1 ?_
  rw [get?_eq_some_iff.2 mem]
  rfl

/-! ## Creation -/

theorem Known.restoreStores (h : k.Known s.engine) (id : Id) (names : List String) :
    Ends (fun r s' => r.2.Known s'.engine) ((Keeper.restoreStores id names).script k) s := by
  induction names generalizing k s with
  | nil => exact ends_done h
  | cons name names ih =>
    rw [Keeper.restoreStores, script_outcome_bind]
    refine ((leaves_readSnapshot id name).wrapping k s h).bind ?_
    rintro ⟨result, _⟩ s₁ ⟨rfl, h₁⟩
    cases result with
    | error e => exact ends_done h₁
    | ok entries =>
      show Ends _ (script (ask (.openPartition name) >>= _) _) _
      rw [script_ask_bind]
      rcases s₁.onEngine_cases fun e => e.openPartition name with
        ⟨e, s₂, answered, like⟩ | ⟨s₂, answered, engaged⟩
      · exact ends_ask answered (ends_done (like.engine ▸ h₁))
      refine ends_ask answered ?_
      have h₂ : Known _ s₂.engine :=
        h₁.mono fun other known => engaged.engine ▸ Engine.registered_openPartition _ name known
      cases opened : (s₁.engine.openPartition name).1 with
      | error e => exact ends_done h₂
      | ok partition =>
        have registered := Engine.registered_of_openPartition opened
        rw [← engaged.engine] at registered
        show Ends _ (script (outcome _ >>= _) _) _
        rw [script_outcome_bind]
        refine ((leaves_loadEntries partition entries).wrapping _ s₂ rfl).bind ?_
        rintro ⟨result, _⟩ s₃ ⟨rfl, same⟩
        cases result with
        | error e => exact ends_done (h₂.of_registered same)
        | ok _ =>
          show Ends _ (script (change (Keeper.track name) >>= _) _) _
          rw [script_change_bind, script_bind]
          refine (ih ((h₂.of_registered same).track (same ▸ registered))).bind ?_
          rintro ⟨result, _⟩ s₄ h₄
          cases result <;> exact ends_done h₄

theorem Known.discardStores (h : k.Known s.engine) (names : List String) :
    Ends (fun r s' => r.2.Known s'.engine) ((Keeper.discardStores names).script k) s := by
  induction names generalizing k s with
  | nil => exact ends_done h
  | cons name names ih =>
    rw [Keeper.discardStores, script_ask_bind]
    rcases s.onEngine_cases fun e => e.removePartition name with
      ⟨e, s₁, answered, like⟩ | ⟨s₁, answered, engaged⟩
    · refine ends_ask answered ?_
      rw [script_change_bind]
      exact ih (h.untrack fun other _ => by rw [like.engine])
    · refine ends_ask answered ?_
      rw [script_change_bind]
      refine ih (h.untrack fun other apart => ?_)
      rw [engaged.engine, Engine.registered_removePartition _ apart]

theorem Known.discard (h : k.Known s.engine) (names : List String) :
    Ends (fun r s' => r.2.Known s'.engine) ((Keeper.discard names).script k) s := by
  rw [Keeper.discard, script_bind]
  refine (h.discardStores names).bind ?_
  rintro ⟨result, k⟩ s₁ h₁
  cases result with
  | error e => exact ends_done h₁
  | ok _ =>
    refine (leaves_clear (I := k.Known) k s₁ h₁).mono ?_
    rintro ⟨_, _⟩ s' ⟨rfl, h'⟩
    exact h'

theorem Known.restore (h : k.Known s.engine) :
    Ends (fun r s' => r.2.Known s'.engine) (Keeper.restore.script k) s := by
  rw [Keeper.restore, script_outcome_bind]
  refine (leaves_restorable k s h).bind ?_
  rintro ⟨result, _⟩ s₁ ⟨rfl, h₁⟩
  cases result with
  | error e => exact h₁.discard []
  | ok found =>
    cases found with
    | none => exact ends_done h₁
    | some record =>
      show Ends _ (script (Keeper.restoreStores record.id record.stores >>= _) _) _
      rw [script_bind]
      refine (h₁.restoreStores record.id record.stores).bind ?_
      rintro ⟨result, k⟩ s₂ h₂
      cases result with
      | error e => exact ends_done h₂
      | ok loaded =>
        obtain ⟨names, result⟩ := loaded
        cases result with
        | ok _ => exact ends_done h₂
        | error e => exact h₂.discard names

theorem Known.create (h : k.Known s.engine) :
    Ends (fun r s' => r.2.Known s'.engine) (Keeper.create.script k) s := by
  rw [Keeper.create, script_get_bind, script_disk_bind]
  rcases s.onDisk_cases (.makeDirectories k.directory) with
    ⟨fault, s₁, answered, like⟩ | ⟨s₁, answered, placed⟩
  · exact ends_ask answered (ends_done (like.engine ▸ h))
  refine ends_ask answered ?_
  have h₁ : (inPhase .restoring k).Known s₁.engine := placed.engine ▸ h
  cases (s.disk.call (.makeDirectories k.directory)).1 with
  | error fault => exact ends_done h₁
  | ok _ =>
    show Ends _ (script (change (inPhase .restoring) >>= _) _) _
    rw [script_change_bind, script_bind]
    refine h₁.restore.bind ?_
    rintro ⟨result, k⟩ s₂ h₂
    cases result <;> exact ends_done h₂

/-! ## Backups -/

/-- A backup leaves the keeper but for its phase, and keeps a condition on the engine that the
opening of the partitions to be read keeps. -/
theorem ends_snapshot {I : Engine → Prop} (pages : Nat) (holds : I s.engine)
    (opens : ∀ name ∈ k.trackedNames, ∀ e, I e → I (e.openPartition name).2) :
    Ends (fun r s' => r.2 = (if k.phase = .closed then k else inPhase .ready k) ∧ I s'.engine)
      ((Keeper.snapshot pages).script k) s := by
  rw [Keeper.snapshot, script_get_bind]
  by_cases closed : k.phase = .closed
  · rw [if_pos closed, if_pos closed]
    exact ends_done ⟨rfl, holds⟩
  rw [if_neg closed, if_neg closed]
  show Ends _ (script (change (inPhase .backingUp) >>= _) _) _
  rw [script_change_bind, script_ask_bind]
  refine ends_ask rfl ?_
  rw [script_outcome_bind]
  refine (ends_writeBackup (k := inPhase .backingUp k) pages s.id holds opens).bind ?_
  rintro ⟨result, _⟩ s₁ ⟨rfl, holds₁⟩
  rw [script_change_bind]
  cases result with
  | ok record => exact ((leaves_clearStale (some s.id)).bind fun _ => leaves_pure record) _ s₁ holds₁
  | error e =>
    refine ((leaves_isReferenced s.id).bind fun found => ?_) (inPhase .ready k) s₁ holds₁
    dsimp only
    split
    · exact leaves_get.bind fun _ => (leaves_ask fun _ holds => holds).bind fun _ => leaves_throw e
    · exact leaves_throw e

/-! ## Deeds -/

/-- How a deed changes what is tracked and what is registered: not at all, or by one name that is
opened or removed. -/
inductive Bookkeeping (k : Keeper) (e : Engine) (k' : Keeper) (e' : Engine) : Prop where
  | kept (tracked : k'.tracked = k.tracked) (registered : e'.registered = e.registered)
  | opened {name : String} {partition : PartitionId}
    (opened : (e.openPartition name).1 = .ok partition) (tracked : k' = track name k)
    (registered : e' = (e.openPartition name).2)
  | removed {name : String} (removed : (e.removePartition name).1 = .ok ())
    (tracked : k' = untrack name k) (registered : e' = (e.removePartition name).2)

theorem Known.bookkeeping {k' : Keeper} (h : k.Known e) (books : Bookkeeping k e k' e') :
    k'.Known e' := by
  cases books with
  | kept tracked registered =>
    intro name known
    rw [registered]
    exact h name (tracked ▸ known)
  | @opened name _ opened tracked registered =>
    subst tracked registered
    have h' : k.Known (e.openPartition name).2 :=
      h.mono fun other known => Engine.registered_openPartition e name known
    exact h'.track (Engine.registered_of_openPartition opened)
  | removed removed tracked registered =>
    subst tracked registered
    exact h.untrack fun other apart => Engine.registered_removePartition _ apart

theorem bookkeeping_openPartition (k : Keeper) (s : Site) (name : String) :
    Ends (fun r s' => Bookkeeping k s.engine r.2 s'.engine)
      ((Keeper.openPartition name).script k) s := by
  rw [Keeper.openPartition, script_ask_bind]
  rcases s.onEngine_cases fun e => e.openPartition name with
    ⟨e, s₁, answered, like⟩ | ⟨s₁, answered, engaged⟩
  · exact ends_ask answered (ends_done (.kept rfl (congrArg _ like.engine)))
  refine ends_ask answered ?_
  rw [script_ofExcept_bind]
  cases opened : (s.engine.openPartition name).1 with
  | error e =>
    rw [Engine.openPartition_of_error opened] at engaged
    exact ends_done (.kept rfl (congrArg _ engaged.engine))
  | ok partition => exact ends_done (.opened opened rfl engaged.engine)

theorem bookkeeping_removePartition (k : Keeper) (s : Site) (name : String) :
    Ends (fun r s' => Bookkeeping k s.engine r.2 s'.engine)
      ((Keeper.removePartition name).script k) s := by
  rw [Keeper.removePartition, script_ask_bind]
  rcases s.onEngine_cases fun e => e.removePartition name with
    ⟨e, s₁, answered, like⟩ | ⟨s₁, answered, engaged⟩
  · exact ends_ask answered (ends_done (.kept rfl (congrArg _ like.engine)))
  refine ends_ask answered ?_
  rw [script_ofExcept_bind]
  cases removed : (s.engine.removePartition name).1 with
  | error e =>
    rw [Engine.removePartition_of_error removed] at engaged
    exact ends_done (.kept rfl (congrArg _ engaged.engine))
  | ok _ => exact ends_done (.removed removed rfl engaged.engine)

/-- The partitions that are read are registered, and are not registered again. -/
theorem Known.opens (h : k.Known e) (I : Engine → Prop) :
    ∀ name ∈ k.trackedNames, I e → I (e.openPartition name).2 := by
  intro name tracked holds
  rw [Engine.openPartition_of_registered (h.registered tracked)]
  exact holds

/-- A backup leaves the engine, and the keeper but for its phase. -/
theorem Known.ends_snapshot (h : k.Known s.engine) (pages : Nat) :
    Ends (fun r s' => r.2 = (if k.phase = .closed then k else inPhase .ready k) ∧
        s'.engine = s.engine) ((Keeper.snapshot pages).script k) s := by
  refine Keeper.ends_snapshot (I := (· = s.engine)) pages rfl ?_
  rintro name tracked _ rfl
  exact h.opens (· = s.engine) name tracked rfl

theorem Known.tracked_snapshot (h : k.Known s.engine) (pages : Nat) :
    Ends (fun r s' => r.2.tracked = k.tracked ∧ s'.engine.registered = s.engine.registered)
      ((Keeper.snapshot pages).script k) s := by
  refine (h.ends_snapshot pages).mono ?_
  rintro ⟨_, _⟩ s' ⟨rfl, engine⟩
  refine ⟨?_, congrArg _ engine⟩
  dsimp only
  split <;> rfl

/-- A keeper that is closed takes a backup unless it was closed before, and closes the engine. -/
theorem ends_close {E : Keeper → Site → Prop} (pages : Nat)
    (taken : Ends (fun r s' => E r.2 s') ((Keeper.snapshot pages).script k) s)
    (closed : ∀ k s, E k s → E (inPhase .closed k) s)
    (closes : ∀ k s, E k s → E k (answer .closeEngine s).2) :
    Ends (fun r s' => E r.2 s') ((Keeper.close pages).script k) s := by
  have closing : ∀ (k : Keeper) (s : Site), E k s → Ends (fun r s' => E r.2 s')
      (script (do ofExcept (fun e => e) (← ask .closeEngine) : Activity StorageError Unit) k) s := by
    intro k s holds
    rw [script_ask_bind]
    exact ends_ask rfl (ends_done (closes k s holds))
  rw [Keeper.close, script_get_bind]
  by_cases done : k.phase = .closed
  · rw [if_neg (not_not_intro done)]
    rw [Keeper.snapshot, script_get_bind, if_pos done] at taken
    exact closing k s taken
  · rw [if_pos done, script_outcome_bind]
    refine taken.bind fun r s₁ holds => ?_
    rw [script_change_bind]
    exact closing _ s₁ (closed _ s₁ holds)

theorem bookkeeping_close (h : k.Known s.engine) (pages : Nat) :
    Ends (fun r s' => Bookkeeping k s.engine r.2 s'.engine)
      ((Keeper.close pages).script k) s := by
  have closed := ends_close (E := fun k' s' => k'.tracked = k.tracked ∧
    s'.engine.registered = s.engine.registered) pages (h.tracked_snapshot pages)
    (fun _ _ same => same) ?_
  · exact closed.mono fun _ _ same => .kept same.1 same.2
  · rintro k' s' ⟨tracked, registered⟩
    refine ⟨tracked, ?_⟩
    rcases s'.engine_answer .closeEngine with same | done
    · rw [same, registered]
    · rw [done]
      exact registered

end Keeper

/-! ## Standpoints -/

/-- Each deed is of one of these kinds. -/
theorem Keeper.Known.bookkeeping_step {p : Standpoint} (h : p.keeper.Known p.site.engine)
    (deed : Deed × Occasion) :
    Keeper.Bookkeeping p.keeper p.site.engine (Standpoint.step deed p).2.keeper
      (Standpoint.step deed p).2.site.engine := by
  obtain ⟨deed, o⟩ := deed
  have met : (p.meet o).keeper.Known (p.meet o).site.engine := h
  cases deed with
  | openPartition name => exact bookkeeping_openPartition _ (p.meet o).site name
  | removePartition name => exact bookkeeping_removePartition _ (p.meet o).site name
  | put id key value => exact .kept rfl (registered_call id (.put key value) (p.meet o).site)
  | remove id key => exact .kept rfl (registered_call id (.remove key) (p.meet o).site)
  | snapshot =>
    obtain ⟨tracked, registered⟩ := met.tracked_snapshot (p.meet o).site.engine.pageBound
    exact .kept tracked registered
  | close => exact bookkeeping_close met _

/-- Whether a keeper can come to a standpoint from its creation over a new engine by deeds, while
everything but the engine may change in any way. -/
inductive Reachable : Standpoint → Prop where
  | created {path : String} {format : Format} {batchSize : Nat} {s : Site}
    (unused : s.engine = .empty)
    (succeeded : (Keeper.create.runOn ⟨Keeper.new path format batchSize, s⟩).1 = .ok ()) :
    Reachable (Keeper.create.runOn ⟨Keeper.new path format batchSize, s⟩).2
  | step {p : Standpoint} (deed : Deed × Occasion) (h : Reachable p) :
    Reachable (Standpoint.step deed p).2
  | elsewhere {p : Standpoint} {site : Site} (same : site.engine = p.site.engine)
    (h : Reachable p) : Reachable ⟨p.keeper, site⟩

/-- Wherever a keeper has come to, the engine registers each name that it tracks. -/
theorem Reachable.known {p : Standpoint} (h : Reachable p) : p.keeper.Known p.site.engine := by
  induction h with
  | @created path format batchSize s unused succeeded =>
    have none : (Keeper.new path format batchSize).Known s.engine := nofun
    exact none.create
  | step deed h ih => exact ih.bookkeeping (ih.bookkeeping_step deed)
  | elsewhere same h ih => exact ih.of_registered (congrArg _ same)

end SnapshotStore
