import SnapshotStore.Proofs.Backup.Upholds
import SnapshotStore.Proofs.Engine
import SnapshotStore.Stack

/-!
What becomes of the engine below a stack. No layer registers a handle a second time: a name that is
registered later has the handle that it had, or a new one (`Engine.Grows`). Calls on partitions leave
the names as they are (`Engine.SameNames`).
-/

namespace SnapshotStore

open OrderedMap

namespace Engine

variable {e e' e'' : Engine}

/-- Whether an engine has become another one: each name has the handle that it had, a new one or
none, and an engine that was closed is closed. -/
structure Grows (e e' : Engine) : Prop where
  size : e.partitions.size ≤ e'.partitions.size
  closed : e.isClosed = true → e'.isClosed = true
  known : ∀ {name id}, e'.registered.get? name = some id → id < e.partitions.size →
    e.registered.get? name = some id
  sound : e.Sound → e'.Sound

/-- Whether two engines have the same names, handles and state. -/
structure SameNames (e e' : Engine) : Prop where
  registered : e'.registered = e.registered
  closed : e'.isClosed = e.isClosed
  size : e'.partitions.size = e.partitions.size

theorem Grows.refl (e : Engine) : Grows e e := ⟨Nat.le_refl _, id, fun known _ => known, id⟩

theorem Grows.trans (h : Grows e e') (h' : Grows e' e'') : Grows e e'' where
  size := Nat.le_trans h.size h'.size
  closed := h'.closed ∘ h.closed
  known := fun known inside => h.known (h'.known known (Nat.lt_of_lt_of_le inside h.size)) inside
  sound := h'.sound ∘ h.sound

theorem SameNames.refl (e : Engine) : SameNames e e := ⟨rfl, rfl, rfl⟩

theorem SameNames.trans (h : SameNames e e') (h' : SameNames e' e'') : SameNames e e'' :=
  ⟨h'.registered.trans h.registered, h'.closed.trans h.closed, h'.size.trans h.size⟩

theorem SameNames.grows (h : SameNames e e') : Grows e e' where
  size := Nat.le_of_eq h.size.symm
  closed := fun closed => h.closed.trans closed
  known := fun known _ => h.registered ▸ known
  sound := by
    intro sound
    constructor
    · intro name id known
      rw [h.size]
      exact sound.exist (h.registered ▸ known)
    · intro name name' id known known'
      exact sound.apart (h.registered ▸ known) (h.registered ▸ known')

theorem sameNames_call (e : Engine) (id : PartitionId) (c : Call) : SameNames e (e.call id c).2 :=
  ⟨rfl, rfl, Array.size_setIfInBounds⟩

theorem grows_close (e : Engine) : Grows e e.close :=
  ⟨Nat.le_refl _, fun _ => rfl, fun known _ => known, sound_close⟩

theorem grows_openPartition (e : Engine) (name : String) :
    Grows e (e.openPartition name).2 where
  size := e.size_openPartition name
  closed closed := by rwa [isClosed_openPartition]
  known known inside := (registered_openPartition_iff inside).1 known
  sound sound := sound_openPartition sound name

theorem grows_removePartition (e : Engine) (name : String) :
    Grows e (e.removePartition name).2 where
  size := Nat.le_of_eq (e.size_removePartition name).symm
  closed closed := by rwa [isClosed_removePartition]
  known known _ := registered_before_removePartition known
  sound sound := sound_removePartition sound name

end Engine

open Engine

namespace Platform

variable (p : Platform)

theorem engine_sleepUntil (moment : Nat) : (p.sleepUntil moment).engine = p.engine := by
  rw [sleepUntil]
  split <;> rfl

theorem engine_wait (micros : Nat) : (p.wait micros).engine = p.engine := by
  rw [wait]
  split
  · rfl
  · exact p.engine_sleepUntil _

theorem sameNames_act (id : PartitionId) (c : Call) : SameNames p.engine (p.act id c).2.engine :=
  p.engine.sameNames_call id c

theorem sameNames_vanish (id : PartitionId) (c : Call) (answer : c.Answer) :
    SameNames p.engine (p.vanish id c answer).engine := by
  cases c with
  | first =>
    unfold vanish
    dsimp only
    split
    · split
      · cases answer with
        | some entry => exact p.engine.sameNames_call id (.remove entry.1)
        | none => exact .refl _
      · exact .refl _
    · exact .refl _
  | _ => exact .refl _

/-- A call waits, does its work or not, and may take away the first entry that was read. -/
theorem sameNames_call (budget : Option Nat) (id : PartitionId) (c : Call) :
    SameNames p.engine (p.call budget id c).2.engine := by
  have waits : ∀ (p : Platform) micros, SameNames p.engine (p.wait micros).engine :=
    fun p micros => p.engine_wait micros ▸ .refl _
  rw [call]
  dsimp only
  split
  · exact waits p _
  · split
    · refine .trans ?_ (sameNames_vanish _ id c _)
      exact (p.sameNames_act id c).trans (waits _ _)
    · refine .trans ?_ (sameNames_vanish _ id c _)
      exact (waits p _).trans (sameNames_act _ id c)
  · rw [engine_sleepUntil]
    split
    · exact p.sameNames_act id c
    · exact .refl _

/-- A value that is put gets under its key or nowhere. -/
theorem engine_call_put (budget : Option Nat) (id : PartitionId) (key value : Bytes) :
    (p.call budget id (.put key value)).2.engine = p.engine ∨
      (p.call budget id (.put key value)).2.engine = (p.engine.call id (.put key value)).2 := by
  rw [call]
  dsimp only
  split
  · exact .inl (p.engine_wait _)
  · right
    split
    · exact engine_wait _ _
    · exact congrArg (fun e => (Engine.call e id (.put key value)).2) (p.engine_wait _)
  · rw [engine_sleepUntil]
    split
    · exact .inr rfl
    · exact .inl rfl

theorem grows_answer (r : KeeperRequest) : Grows p.engine (answer r p).2.engine := by
  cases r with
  | openPartition name =>
    rw [answer, openPartition, attempt]
    split
    · exact .refl _
    · exact p.engine.grows_openPartition name
  | removePartition name =>
    rw [answer, removePartition, attempt]
    split
    · exact .refl _
    · exact p.engine.grows_removePartition name
  | closeEngine =>
    rw [answer, closeEngine, attempt]
    split
    · exact .refl _
    · exact p.engine.grows_close
  | call id c => exact (p.sameNames_call none id c).grows
  | disk _ | admitWrite _ | admitRead _ | freshId | now => exact .refl _

theorem grows_run {α : Type} (script : Script keeperInterface α) (p : Platform) :
    Grows p.engine (script.run answer p).2.engine := by
  induction script generalizing p with
  | done a => exact .refl _
  | ask r resume ih => exact (p.grows_answer r).trans (ih _ _)

/-- What the engine said is what an attempt on it gives, if it succeeds. -/
theorem attempt_of_ok {α : Type} {a : α} {name : String}
    {action : Platform → Except StorageError α × Platform} (h : (p.attempt name action).1 = .ok a) :
    p.attempt name action = action p := by
  rw [attempt] at h ⊢
  split at h
  · cases h
  · rfl

/-- What an attempt on the engine gives, if it succeeds, is what the engine gives. -/
theorem engine_of_attempt {α : Type} {a : α} {name : String}
    {f : Engine → Except StorageError α × Engine}
    (h : (p.attempt name fun p => ((f p.engine).1, { p with engine := (f p.engine).2 })).1 = .ok a) :
    f p.engine = (.ok a,
      (p.attempt name fun p => ((f p.engine).1, { p with engine := (f p.engine).2 })).2.engine) := by
  have acted := p.attempt_of_ok h
  rw [acted] at h ⊢
  exact Prod.ext h rfl

end Platform

namespace Stack

variable (s : Stack)

theorem sameNames_call (id : PartitionId) (c : Call) :
    SameNames s.platform.engine (s.call id c).2.platform.engine := by
  rw [call]
  split
  · exact .refl _
  · exact s.platform.sameNames_call s.budget id c

theorem engine_call_put (id : PartitionId) (key value : Bytes) :
    (s.call id (.put key value)).2.platform.engine = s.platform.engine ∨
      (s.call id (.put key value)).2.platform.engine =
        (s.platform.engine.call id (.put key value)).2 := by
  rw [call]
  split
  · exact .inl rfl
  · exact s.platform.engine_call_put s.budget id key value

theorem grows_keep {ε α : Type} (k : Keeper) (body : Activity ε α) :
    Grows s.platform.engine (s.keep k body).2.platform.engine :=
  Platform.grows_run _ _

/-! ## Opening, removing and closing -/

/-- A keeper opens what the platform opens, and tracks it. -/
theorem runKeeper_openPartition (k : Keeper) (p : Platform) (name : String) :
    ∃ k', runKeeper k p (Keeper.openPartition name) =
        (((p.openPartition name).1, k'), (p.openPartition name).2) ∧
      ∀ id, (p.openPartition name).1 = .ok id → k' = k.track name := by
  show ∃ k', ((Keeper.openPartition name).script k).run Platform.answer p = _ ∧ _
  rw [Keeper.openPartition, Activity.script_ask_bind, Script.run_ask, Activity.script_ofExcept_bind,
    Platform.answer]
  cases (p.openPartition name).1 with
  | error e => exact ⟨_, rfl, nofun⟩
  | ok id => exact ⟨_, rfl, fun _ _ => rfl⟩

theorem runKeeper_removePartition (k : Keeper) (p : Platform) (name : String) :
    ∃ k', runKeeper k p (Keeper.removePartition name) =
      (((p.removePartition name).1, k'), (p.removePartition name).2) := by
  show ∃ k', ((Keeper.removePartition name).script k).run Platform.answer p = _
  rw [Keeper.removePartition, Activity.script_ask_bind, Script.run_ask,
    Activity.script_ofExcept_bind, Platform.answer]
  cases (p.removePartition name).1 with
  | error e => exact ⟨_, rfl⟩
  | ok _ => exact ⟨_, rfl⟩

theorem closed_of_closeEngine {p : Platform} (h : p.closeEngine.1 = .ok ()) :
    p.closeEngine.2.engine.isClosed = true := by
  rw [Platform.closeEngine] at h ⊢
  rw [p.attempt_of_ok h]
  rfl

/-- A keeper that closes without an error has closed the engine. -/
theorem closed_of_runKeeper_close {k : Keeper} {p : Platform} {pages : Nat}
    (h : (runKeeper k p (Keeper.close pages)).1.1 = .ok ()) :
    (runKeeper k p (Keeper.close pages)).2.engine.isClosed = true := by
  have closing : ∀ (k : Keeper) (p : Platform),
      let last := (Activity.script (Activity.ask .closeEngine >>= Activity.ofExcept (fun e => e)) k :
        Script keeperInterface (Except StorageError Unit × Keeper)).run Platform.answer p
      last.1.1 = .ok () → last.2.engine.isClosed = true := by
    intro k p
    rw [Activity.script_ask_bind, Script.run_ask, Activity.script_ofExcept, Script.run_done,
      Platform.answer]
    intro last h
    refine closed_of_closeEngine ?_
    cases ended : p.closeEngine.1 with
    | ok _ => rfl
    | error e =>
      simp only [last, ended] at h
      cases h
  change (Script.run Platform.answer ((Keeper.close pages).script k) p).1.1 = _ at h
  show (Script.run Platform.answer ((Keeper.close pages).script k) p).2.engine.isClosed = true
  rw [Keeper.close, Activity.script_get_bind] at h ⊢
  split at h
  · rename_i running
    rw [if_pos running]
    rw [Activity.script_outcome_bind, Script.run_bind, Activity.script_change_bind] at h ⊢
    exact closing _ _ h
  · rename_i closed
    rw [if_neg closed]
    exact closing k p h

/-! ## What a stack has done to its engine -/

/-- What a stack opens is what its engine opens. -/
theorem openPartition_of_ok (name : String) {id : PartitionId}
    (h : (s.openPartition name).1 = .ok id) :
    s.platform.engine.openPartition name = (.ok id, (s.openPartition name).2.platform.engine) := by
  have opened : ∀ {p : Platform}, (p.openPartition name).1 = .ok id →
      p.engine.openPartition name = (.ok id, (p.openPartition name).2.engine) :=
    fun {p} => p.engine_of_attempt (f := fun e => e.openPartition name)
  rw [openPartition] at h ⊢
  cases kept : s.keeper with
  | none =>
    simp only [kept] at h
    exact opened h
  | some k =>
    obtain ⟨k', ran, -⟩ := runKeeper_openPartition k s.platform name
    simp only [kept, keep, ran] at h ⊢
    exact opened h

theorem removePartition_of_ok (name : String) (h : (s.removePartition name).1 = .ok ()) :
    s.platform.engine.removePartition name =
      (.ok (), (s.removePartition name).2.platform.engine) := by
  have removed : ∀ {p : Platform}, (p.removePartition name).1 = .ok () →
      p.engine.removePartition name = (.ok (), (p.removePartition name).2.engine) :=
    fun {p} => p.engine_of_attempt (f := fun e => e.removePartition name)
  rw [removePartition] at h ⊢
  cases kept : s.keeper with
  | none =>
    simp only [kept] at h
    exact removed h
  | some k =>
    obtain ⟨k', ran⟩ := runKeeper_removePartition k s.platform name
    simp only [kept, keep, ran] at h ⊢
    exact removed h

theorem closed_of_close (h : s.close.1 = .ok ()) : s.close.2.platform.engine.isClosed = true := by
  rw [close] at h ⊢
  cases kept : s.stopGuard.keeper with
  | none =>
    simp only [kept] at h ⊢
    exact closed_of_closeEngine h
  | some k =>
    simp only [kept] at h ⊢
    exact closed_of_runKeeper_close h

theorem grows_openPartition (name : String) :
    Grows s.platform.engine (s.openPartition name).2.platform.engine := by
  rw [openPartition]
  split
  · exact s.grows_keep _ _
  · exact s.platform.grows_answer (.openPartition name)

theorem grows_removePartition (name : String) :
    Grows s.platform.engine (s.removePartition name).2.platform.engine := by
  rw [removePartition]
  split
  · exact s.grows_keep _ _
  · exact s.platform.grows_answer (.removePartition name)

theorem grows_close : Grows s.platform.engine s.close.2.platform.engine := by
  have stopped : s.stopGuard.platform.engine = s.platform.engine := by
    rw [stopGuard]
    split <;> rfl
  rw [← stopped, close]
  dsimp only
  split
  · exact grows_keep _ _ _
  · exact Platform.grows_answer _ .closeEngine

end Stack

end SnapshotStore
