import SnapshotStore.Proofs.Backup.Creation
import SnapshotStore.Proofs.Backup.Reachable

/-!
What a keeper tracks is what its engine registers. The creation of a keeper leaves no difference
between the two, unless it cannot give up a partition of a restore that failed
(`Keeper.tallies_create`), and no deed makes one (`Keeper.Tallies.bookkeeping`), since a name is
tracked or given up only after the engine has done the same.
-/

namespace SnapshotStore.Keeper

open Site OrderedMap

variable {k k' : Keeper} {e e' : Engine} {s : Site}

/-- Whether a keeper tracks exactly the names that an engine registers. -/
def Tallies (k : Keeper) (e : Engine) : Prop :=
  ∀ name, (k.tracked.get? name).isSome = (e.registered.get? name).isSome

theorem Tallies.known (h : k.Tallies e) : k.Known e := fun name tracked => h name ▸ tracked

/-- Two maps to nothing in particular are equal if they have the same keys. -/
theorem eq_of_isSome {a b : OrderedMap String Unit}
    (h : ∀ name, (a.get? name).isSome = (b.get? name).isSome) : a = b := by
  refine ext_get? fun name => ?_
  have same := h name
  cases ha : a.get? name with
  | none =>
    rw [ha] at same
    exact (Option.not_isSome_iff_eq_none.1 (by rw [← same]; exact nofun)).symm
  | some _ =>
    rw [ha] at same
    obtain ⟨_, hb⟩ := Option.isSome_iff_exists.1 same.symm
    exact hb.symm

theorem Tallies.trackedNames (h : k.Tallies e) : k.trackedNames = e.names := by
  have same : k.tracked = e.registered.map fun _ _ => () := by
    refine eq_of_isSome fun name => ?_
    rw [get?_map, Option.isSome_map]
    exact h name
  rw [Keeper.trackedNames, same, keys_map, Engine.names]

/-- A keeper that tracks the contents of its engine tracks what that registers. -/
theorem tallies_of_keeps {contents : OrderedMap String (OrderedMap Bytes Bytes)}
    (h : Keeps k s contents) : k.Tallies s.engine := by
  intro name
  rw [h.tracked, get?_map, Option.isSome_map, ← h.held, Engine.isSome_contents]

/-- No deed makes a difference between what is tracked and what is registered. -/
theorem Tallies.bookkeeping (h : k.Tallies e) (books : Bookkeeping k e k' e') : k'.Tallies e' := by
  intro other
  cases books with
  | kept tracked registered =>
    rw [tracked, registered]
    exact h other
  | @opened name _ opened tracked registered =>
    subst tracked registered
    rw [track, get?_insert]
    split
    · rename_i same
      rw [← same, Engine.registered_of_openPartition opened]
      rfl
    · rename_i apart
      rw [Engine.registered_openPartition_of_ne e apart]
      exact h other
  | @removed name removed tracked registered =>
    subst tracked registered
    rw [untrack, get?_erase]
    split
    · rename_i same
      rw [← same, Engine.registered_of_removePartition removed]
      rfl
    · rename_i apart
      rw [Engine.registered_removePartition e apart]
      exact h other

theorem tallies_create {made : Disk} (sound : s.engine.Sound) (opened : s.engine.isClosed = false)
    (steady : s.diskFaults = []) (keeps : Keeps k s .empty)
    (makes : s.disk.call (.makeDirectories k.directory) = (.ok (), made))
    (spared : ∀ name, .removePartition name ∉ struck (create.script k) s) :
    Ends (fun r s' => r.1 = .ok () ∧ r.2.directory = k.directory ∧ r.2.Tallies s'.engine)
      (create.script k) s := by
  obtain ⟨tracked, ended, outcome⟩ := meets_create sound opened steady keeps makes
  rw [Ends, ended]
  refine ⟨rfl, rfl, ?_⟩
  cases outcome with
  | loaded _ _ keeps _ => exact tallies_of_keeps keeps
  | cleared _ discarded => exact tallies_of_keeps (discarded.empty spared)

end SnapshotStore.Keeper
