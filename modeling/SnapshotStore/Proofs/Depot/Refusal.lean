import SnapshotStore.Proofs.Depot.OneWriter

/-!
Requests that a depot refuses as they stand. What goes wrong with a partition, the disk or a stored
value is no refusal (`Unrefused`), so only the depot itself refuses: a name that has an instance of
another type, a queue that is to begin below zero, and a backup that nobody takes. Main statement: a
refused request leaves the depot as it was, but for a queue that is to begin below zero, whose
partition is opened before the request is refused and stays (`Depot.refused_leaves`).
-/

namespace SnapshotStore

variable {α β : Type}

/-! ## Outcomes that are no refusals -/

/-- Whether an outcome is anything but a refusal. -/
def Unrefused (r : Except StoreError α) : Prop :=
  ∀ refusal, r ≠ .error (.invalidOperation refusal)

theorem unrefused_ok (a : α) : Unrefused (.ok a) := nofun

theorem Unrefused.error {e : StoreError} (h : Unrefused (.error e : Except StoreError α)) :
    Unrefused (.error e : Except StoreError β) := by
  rintro refusal same
  cases same
  exact h refusal rfl

theorem unrefused_mapError {δ : Type} {wrap : δ → StoreError}
    (h : ∀ e refusal, wrap e ≠ .invalidOperation refusal) (r : Except δ α) :
    Unrefused (r.mapError wrap) := by
  cases r with
  | ok a => exact unrefused_ok a
  | error e =>
    intro refusal same
    exact h e refusal (Except.error.inj same)

theorem Unrefused.bind {r : Except StoreError α} {f : α → Except StoreError β} (h : Unrefused r)
    (next : ∀ a, Unrefused (f a)) : Unrefused (r >>= f) := by
  cases r with
  | ok a => exact next a
  | error e => exact h.error

/-- Nothing is asked of the requests of a script and of its result. -/
theorem Script.asks_anything {I : Interface} (p : Script I α) :
    p.Asks (fun _ => True) fun _ => True := by
  induction p with
  | done a => trivial
  | ask r resume ih => exact ⟨trivial, ih⟩

/-! ## Stored entries -/

theorem JsonCodec.unrefused_read (codec : JsonCodec α) (bytes : Bytes) :
    Unrefused (codec.read bytes) := by
  rw [JsonCodec.read]
  split
  · exact unrefused_ok _
  · exact nofun

theorem KeyKind.unrefused_decode (kind : KeyKind) (bytes : Bytes) :
    Unrefused (kind.codec.decode bytes) := by
  cases kind with
  | string => exact unrefused_mapError (by simp) _
  | bytes => exact unrefused_ok _
  | signed | unsigned =>
    unfold codec
    dsimp only [signedCodec, unsignedCodec]
    split
    · exact unrefused_ok _
    · exact nofun

theorem Layout.unrefused_entry (keys : KeyKind) (values : ValueKind) (entry : Option Entry) :
    Unrefused (Layout.readEntry? (Layout.json keys values) entry) := by
  cases entry with
  | none => exact unrefused_ok _
  | some entry =>
    refine Unrefused.bind ?_ fun _ => unrefused_ok _
    exact (keys.unrefused_decode _).bind fun _ =>
      (values.json.unrefused_read _).bind fun _ => unrefused_ok _

/-! ## Operations -/

namespace Operation

/-- Whether an operation ends in no refusal, whatever it is replied. -/
def Unrefusing (op : Operation α) : Prop :=
  Script.Asks (I := storeInterface) (fun _ => True) Unrefused op.run

theorem unrefusing_pure (a : α) : Unrefusing (pure a) := unrefused_ok a

theorem unrefusing_ofExcept {r : Except StoreError α} (h : Unrefused r) :
    Unrefusing (ofExcept r) := h

theorem unrefusing_ask (r : StoreRequest) : Unrefusing (ask r) := ⟨trivial, unrefused_ok⟩

theorem unrefusing_call (c : Call) : Unrefusing (Operation.call c) :=
  ⟨trivial, unrefused_mapError (by simp)⟩

theorem Unrefusing.bind {op : Operation α} {f : α → Operation β} (h : Unrefusing op)
    (next : ∀ a, Unrefusing (f a)) : Unrefusing (op >>= f) := by
  show Script.Asks _ _ (Script.bind op.run _)
  refine Script.Asks.bind h fun result unrefused => ?_
  cases result with
  | error e => exact unrefused.error
  | ok a => exact next a

theorem Unrefusing.runAlone {σ : Type} {op : Operation α} (h : Unrefusing op)
    (call : (c : Call) → σ → Except StorageError c.Answer × σ) (s : Standing σ) :
    Unrefused (op.runAlone call s).1 :=
  (Script.Asks.run h (J := fun _ => True) (fun _ _ _ _ => trivial) trivial).1

end Operation

namespace Queue

open Operation

variable {values : ValueKind} (q : Queue values.Carrier)

/-- A queue is found again without a refusal, unless it is to begin below zero. -/
theorem unrefusing_recover (layout : q.items.layout = Layout.json .signed values) {start : Int}
    (h : 0 ≤ start) : Unrefusing (q.recover start) := by
  have ends : Unrefusing q.first ∧ Unrefusing q.last := by
    unfold first last EntityStore.first EntityStore.last Layout.first Layout.last
    rw [layout]
    constructor <;>
      exact ((unrefusing_call _).bind fun _ => unrefusing_ofExcept
        (Layout.unrefused_entry _ _ _)).bind fun _ => unrefusing_pure _
  rw [recover, if_neg (Int.not_lt.2 h)]
  refine ends.1.bind fun first => ends.2.bind fun last => ?_
  split <;> exact (unrefusing_ask _).bind fun _ => unrefusing_ask _

/-- A queue that is to begin below zero is refused before anything is read. -/
theorem runAlone_recover_negative {σ : Type} {start : Int} (h : start < 0)
    (call : (c : Call) → σ → Except StorageError c.Answer × σ) (s : Standing σ) :
    (q.recover start).runAlone call s =
      (.error (.invalidOperation (.negativeHead start)), s) := by
  rw [recover, if_pos h]
  rfl

end Queue

/-! ## Activities -/

namespace Activity

open Keeper

variable {δ : Type}

/-- Whether an activity ends in no refusal, whatever it is replied. -/
def Unrefusing (body : Activity StoreError α) : Prop :=
  ∀ k, (body.script k).Asks (fun _ => True) fun r => Unrefused r.1

theorem unrefusing_pure (a : α) : Unrefusing (pure a) := fun _ => unrefused_ok a

theorem unrefusing_throw {e : StoreError} (h : Unrefused (.error e : Except StoreError α)) :
    Unrefusing (throw e : Activity StoreError α) := fun _ => h

theorem unrefusing_ask (r : KeeperRequest) : Unrefusing (ask r) :=
  fun _ => ⟨trivial, unrefused_ok⟩

theorem unrefusing_get_bind {f : Keeper → Activity StoreError β} (next : ∀ k, Unrefusing (f k)) :
    Unrefusing (get >>= f) := fun k => next k k

theorem unrefusing_change_bind (g : Keeper → Keeper) {f : Unit → Activity StoreError β}
    (next : Unrefusing (f ())) : Unrefusing (change g >>= f) := fun k => next (g k)

theorem Unrefusing.bind {body : Activity StoreError α} {f : α → Activity StoreError β}
    (h : Unrefusing body) (next : ∀ a, Unrefusing (f a)) : Unrefusing (body >>= f) := by
  intro k
  rw [script_bind]
  refine (h k).bind ?_
  rintro ⟨result, k'⟩ unrefused
  cases result with
  | ok a => exact next a k'
  | error e => exact unrefused.error

theorem unrefusing_disk (c : DiskCall) : Unrefusing (disk c) :=
  (unrefusing_ask _).bind fun _ _ => unrefused_mapError (by simp) _

/-- What becomes of an activity is looked at, and no refusal of its own is passed on. -/
theorem Unrefusing.outcome_bind {body : Activity StoreError α}
    {f : Except StoreError α → Activity StoreError β} (h : Unrefusing body)
    (next : ∀ r, Unrefused r → Unrefusing (f r)) : Unrefusing (outcome body >>= f) := by
  intro k
  rw [script_outcome_bind]
  exact (h k).bind fun r unrefused => next r.1 unrefused r.2

/-- What becomes of an activity is looked at, and no error of it is passed on. -/
theorem unrefusing_outcome_bind {body : Activity δ α} {f : Except δ α → Activity StoreError β}
    (next : ∀ r, Unrefusing (f r)) : Unrefusing (outcome body >>= f) := by
  intro k
  rw [script_outcome_bind]
  exact (Script.asks_anything _).bind fun r _ => next r.1 r.2

theorem unrefusing_wrapping {wrap : δ → StoreError}
    (h : ∀ e refusal, wrap e ≠ .invalidOperation refusal) (body : Activity δ α) :
    Unrefusing (wrapping wrap body) :=
  unrefusing_outcome_bind fun r _ => unrefused_mapError h r

theorem unrefusing_saveManifest (manifest : Manifest) : Unrefusing (saveManifest manifest) := by
  refine unrefusing_get_bind fun k => ?_
  refine ((unrefusing_disk _).bind fun _ => unrefusing_disk _).outcome_bind fun r unrefused => ?_
  cases r with
  | ok _ => exact unrefusing_disk _
  | error e => exact (unrefusing_ask _).bind fun _ => unrefusing_throw unrefused.error

/-- What goes wrong with a partition is told as a failure of the backup. -/
theorem unrefusing_writeSnapshots (pages : Nat) (id : Id) (names : List String) :
    Unrefusing (writeSnapshots pages id names) := by
  induction names with
  | nil => exact unrefusing_pure _
  | cons name names ih => exact (unrefusing_wrapping (by simp) _).bind fun _ => ih

theorem unrefusing_writeBackup (pages : Nat) (id : Id) : Unrefusing (writeBackup pages id) :=
  unrefusing_get_bind fun _ => (unrefusing_disk _).bind fun _ =>
    (unrefusing_writeSnapshots pages id _).bind fun _ => (unrefusing_disk _).bind fun _ =>
      (unrefusing_ask .now).bind fun _ =>
        (unrefusing_saveManifest _).bind fun _ => unrefusing_pure _

theorem unrefusing_removeStale (keep : Option Id) (names : List String) :
    Unrefusing (removeStale keep names) := by
  induction names with
  | nil => exact unrefusing_pure _
  | cons name names ih =>
    rw [removeStale]
    cases Id.parse? name with
    | none => exact ih
    | some id =>
      dsimp only
      split
      · exact unrefusing_get_bind fun _ => (unrefusing_ask _).bind fun _ => ih
      · exact ih

theorem unrefusing_clearStale (keep : Option Id) : Unrefusing (clearStale keep) := by
  refine unrefusing_get_bind fun k => (unrefusing_ask (.disk (.list _))).bind fun listing => ?_
  cases listing with
  | ok names => exact unrefusing_removeStale keep _
  | error fault => exact unrefusing_pure _

theorem unrefusing_isReferenced (id : Id) : Unrefusing (isReferenced id) := by
  refine unrefusing_outcome_bind fun r => ?_
  split <;> exact unrefusing_pure _

/-- A keeper that is not closed refuses no backup. -/
theorem unrefused_snapshot {k : Keeper} (h : k.phase ≠ .closed) (pages : Nat) :
    ((Keeper.snapshot pages).script k).Asks (fun _ => True) fun r => Unrefused r.1 := by
  rw [Keeper.snapshot, script_get_bind, if_neg h]
  refine unrefusing_change_bind _ ((unrefusing_ask .freshId).bind fun id => ?_) k
  refine (unrefusing_writeBackup pages id).outcome_bind fun r unrefused => ?_
  refine unrefusing_change_bind _ ?_
  cases r with
  | ok record => exact (unrefusing_clearStale _).bind fun _ => unrefusing_pure _
  | error e =>
    refine (unrefusing_isReferenced id).bind fun found => ?_
    dsimp only
    split
    · exact unrefusing_get_bind fun _ => (unrefusing_ask _).bind fun _ =>
        unrefusing_throw unrefused.error
    · exact unrefusing_throw unrefused.error

end Activity

/-! ## Stacks -/

/-- A stack that opens a name has registered it with the engine, and its keeper tracks it. -/
theorem Stack.openPartition_eq {s : Stack} {name : String} {id : PartitionId}
    (h : (s.openPartition name).1 = .ok id) :
    (s.openPartition name).2 =
      { s with
        platform.engine := (s.platform.engine.openPartition name).2
        keeper := s.keeper.map (Keeper.track name) } := by
  have opened : ∀ {p : Platform}, (p.openPartition name).1 = .ok id →
      (p.openPartition name).2 = { p with engine := (p.engine.openPartition name).2 } := by
    intro p h
    rw [Platform.openPartition] at h ⊢
    rw [p.attempt_of_ok h]
  rw [openPartition] at h ⊢
  cases kept : s.keeper with
  | none =>
    simp only [kept] at h ⊢
    rw [opened h]
    rfl
  | some k =>
    obtain ⟨k', ran, tracks⟩ := runKeeper_openPartition k s.platform name
    simp only [kept, keep, ran] at h ⊢
    rw [opened h, tracks id h]
    rfl

/-- A stack whose keeper is closed refuses a backup and stays as it is. -/
theorem Stack.snapshot_closed {s : Stack} {k : Keeper} (kept : s.keeper = some k)
    (closed : k.phase = .closed) :
    s.snapshot k = (.error (.invalidOperation .backupClosed), s) := by
  have refused : (Keeper.snapshot s.platform.engine.pageBound).script k =
      .done (.error (.invalidOperation .backupClosed), k) := by
    rw [Keeper.snapshot, Activity.script_get_bind, if_pos closed]
    rfl
  have ran : runKeeper k s.platform (Keeper.snapshot s.platform.engine.pageBound) =
      ((.error (.invalidOperation .backupClosed), k), s.platform) := by
    show Script.run Platform.answer ((Keeper.snapshot _).script k) s.platform = _
    rw [refused]
    rfl
  rw [snapshot, keep, ran]
  show (_, { s with platform := s.platform, keeper := some k }) = _
  rw [← kept]

theorem Stack.unrefused_snapshot {s : Stack} {k : Keeper} (h : k.phase ≠ .closed) :
    Unrefused (s.snapshot k).1 := by
  show Unrefused (Script.run Platform.answer ((Keeper.snapshot _).script k) s.platform).1.1
  exact ((Activity.unrefused_snapshot h s.platform.engine.pageBound).run (J := fun _ => True)
    (fun _ _ _ _ => trivial) trivial).1

/-! ## Depots -/

/-- A request that a depot can refuse. -/
inductive DepotRequest where
  | openEntity (name : String) (keys : KeyKind) (values : ValueKind)
  | openQueue (name : String) (values : ValueKind) (start : Int)
  | openSealed (name : String) (keys : KeyKind) (values : ValueKind) (encryptor : Encryptor)
  | openEnvelope (name : String) (keys : KeyKind) (values : ValueKind)
    (encryptor : Option Encryptor)
  | snapshot

/-- What a request is answered with: the number of an instance, or a backup. -/
abbrev DepotRequest.Answer : DepotRequest → Type
  | openEntity _ _ _ | openQueue _ _ _ | openSealed _ _ _ _ | openEnvelope _ _ _ _ => Nat
  | snapshot => BackupRecord

namespace Depot

variable {d : Depot} {name : String} {type : StoreType} {refusal : Refusal}

/-- The answer to a request, and the depot after it. -/
def ask (d : Depot) : (r : DepotRequest) → Except StoreError r.Answer × Depot
  | .openEntity name keys values => d.openEntity name keys values
  | .openQueue name values start => d.openQueue name values start
  | .openSealed name keys values encryptor => d.openSealed name keys values encryptor
  | .openEnvelope name keys values encryptor => d.openEnvelope name keys values encryptor
  | .snapshot => d.snapshot

/-- A depot whose stack has opened the partition of a name. -/
def withPartition (d : Depot) (name : String) : Depot :=
  { d with
    stack.platform.engine := (d.stack.platform.engine.openPartition name).2
    stack.keeper := d.stack.keeper.map (Keeper.track name) }

/-- A partition that is there and tracked is not opened anew. -/
theorem withPartition_of_tracked
    (registered : (d.stack.platform.engine.registered.get? name).isSome = true)
    (tracked : ∀ k ∈ d.stack.keeper, k.tracked.get? name = some ()) : d.withPartition name = d := by
  have engine : (d.stack.platform.engine.openPartition name).2 = d.stack.platform.engine :=
    Engine.openPartition_of_registered registered
  have keeper : d.stack.keeper.map (Keeper.track name) = d.stack.keeper := by
    cases kept : d.stack.keeper with
    | none => rfl
    | some k =>
      have same := OrderedMap.insert_of_get? (tracked k kept)
      exact congrArg some (congrArg (fun tracked => { k with tracked }) same)
  rw [withPartition, engine, keeper]

theorem cached_refused {build : Stack → Except StoreError StoreInstance × Stack}
    (h : (d.cached name type build).1 = .error (.invalidOperation refusal)) :
    refusal = .otherType name ∧ (d.cached name type build).2 = d ∨
      d.current.get? name = none ∧ (build d.stack).1 = .error (.invalidOperation refusal) ∧
        (d.cached name type build).2 = { d with stack := (build d.stack).2 } := by
  rw [cached] at h ⊢
  cases free : d.current.get? name with
  | some i =>
    simp only [free] at h ⊢
    split at h
    · cases h
    · rename_i other
      rw [if_neg other]
      cases h
      exact .inl ⟨rfl, rfl⟩
  | none =>
    simp only [free] at h ⊢
    cases made : build d.stack with | mk result stack =>
    rw [made] at h
    cases result with
    | error e => exact .inr ⟨trivial, congrArg Except.error (Except.error.inj h), rfl⟩
    | ok store => cases h

/-- What goes wrong with the opening of a partition is no refusal. -/
theorem unrefused_build (name : String) (type : StoreType) (encryptor : Option Encryptor)
    (s : Stack) : Unrefused (build name type encryptor s).1 := by
  rw [build]
  generalize s.openPartition name = opened
  obtain ⟨e | id, s'⟩ := opened
  · intro refusal same
    cases same
  · exact unrefused_ok _

/-- An instance that takes nothing but its partition is refused for its type only. -/
theorem cached_build_refused {encryptor : Option Encryptor}
    (h : (d.cached name type (build name type encryptor)).1 =
      .error (.invalidOperation refusal)) :
    refusal = .otherType name ∧ (d.cached name type (build name type encryptor)).2 = d := by
  rcases cached_refused h with other | ⟨-, refused, -⟩
  · exact other
  · exact absurd refused (unrefused_build name type encryptor d.stack refusal)

/-- A queue is refused for where it is to begin once its partition is open. -/
theorem buildQueue_refused {values : ValueKind} {start : Int} {s : Stack}
    (h : (d.buildQueue name values start s).1 = .error (.invalidOperation refusal)) :
    refusal = .negativeHead start ∧ start < 0 ∧ ∃ id, (s.openPartition name).1 = .ok id ∧
      (d.buildQueue name values start s).2 = (s.openPartition name).2 := by
  rw [buildQueue, build] at h ⊢
  generalize s.openPartition name = opened at h ⊢
  obtain ⟨e | id, s'⟩ := opened
  · cases h
  let q : Queue values.Carrier :=
    ⟨⟨name, Layout.json .signed values, Shards.ofCount d.shardCount fun _ => 0⟩⟩
  dsimp only at h ⊢
  by_cases negative : start < 0
  · have refused : runOperation id (q.recover start) s' 0 0 =
        (.error (.invalidOperation (.negativeHead start)), s', 0, 0) := by
      rw [runOperation, q.runAlone_recover_negative negative]
    rw [refused] at h ⊢
    cases h
    exact ⟨rfl, negative, id, rfl, rfl⟩
  · have unrefused : Unrefused (runOperation id (q.recover start) s' 0 0).1 :=
      (q.unrefusing_recover rfl (Int.not_lt.1 negative)).runAlone _ _
    generalize runOperation id (q.recover start) s' 0 0 = ran at h unrefused
    obtain ⟨e | _, _⟩ := ran
    · exact absurd h (unrefused.error refusal)
    · cases h

theorem snapshot_eq {k : Keeper} (kept : d.stack.keeper = some k) (backed : d.hasBackup = true) :
    d.snapshot = ((d.stack.snapshot k).1, { d with stack := (d.stack.snapshot k).2 }) := by
  rw [snapshot, kept, backed]

/-- Of a backup, a depot refuses what it is not set up for or is closed. -/
theorem snapshot_refused (h : d.snapshot.1 = .error (.invalidOperation refusal)) :
    (refusal = .backupNotConfigured ∨ refusal = .backupClosed) ∧ d.snapshot.2 = d := by
  by_cases able : d.stack.keeper.isSome ∧ d.hasBackup = true
  · obtain ⟨k, kept⟩ := Option.isSome_iff_exists.1 able.1
    rw [snapshot_eq kept able.2] at h ⊢
    by_cases closed : k.phase = .closed
    · rw [Stack.snapshot_closed kept closed] at h ⊢
      cases h
      exact ⟨.inr rfl, rfl⟩
    · exact absurd h (Stack.unrefused_snapshot closed refusal)
  · have unable : d.snapshot = (.error (.invalidOperation .backupNotConfigured), d) := by
      rw [snapshot]
      split
      · rename_i kept backed
        exact absurd ⟨Option.isSome_iff_exists.2 ⟨_, kept⟩, backed⟩ able
      · rfl
    rw [unable] at h ⊢
    cases h
    exact ⟨.inl rfl, rfl⟩

/-- A depot that refuses a request as it stands, because a name has an instance of another type, or
because nobody takes backups or their keeper is closed, is left as it was in all respects: the
partitions and their entries, the names that are tracked, the instances and the disk. A queue that
is to begin below zero is refused only after its partition was opened: the engine has it registered
then, empty unless it was there before, and the keeper tracks it; nothing else is changed. -/
theorem refused_leaves (d : Depot) (r : DepotRequest) {refusal : Refusal}
    (h : (d.ask r).1 = .error (.invalidOperation refusal)) :
    (refusal = .backupNotConfigured ∨ refusal = .backupClosed ∨
        ∃ name, refusal = .otherType name) ∧ (d.ask r).2 = d ∨
      ∃ name values start, refusal = .negativeHead start ∧ r = .openQueue name values start ∧
        start < 0 ∧ d.current.get? name = none ∧ (d.ask r).2 = d.withPartition name ∧
        (d.stack.platform.engine.Sound → (d.ask r).2.stack.platform.engine.contents =
          d.stack.platform.engine.contents.insert name (d.stack.platform.engine.entriesOf name)) ∧
        ((d.stack.platform.engine.registered.get? name).isSome = true →
          (∀ k ∈ d.stack.keeper, k.tracked.get? name = some ()) → (d.ask r).2 = d) := by
  cases r with
  | openEntity name keys values | openSealed name keys values encryptor
  | openEnvelope name keys values encryptor =>
    obtain ⟨other, same⟩ := cached_build_refused h
    exact .inl ⟨.inr (.inr ⟨name, other⟩), same⟩
  | openQueue name values start =>
    have h : (d.cached name (.queue values) (d.buildQueue name values start)).1 = _ := h
    rcases cached_refused h with ⟨other, same⟩ | ⟨free, refused, left⟩
    · exact .inl ⟨.inr (.inr ⟨name, other⟩), same⟩
    obtain ⟨negative, below, id, opened, stack⟩ := buildQueue_refused refused
    rw [stack, Stack.openPartition_eq opened] at left
    have residue : (d.ask (.openQueue name values start)).2 = d.withPartition name := left
    obtain ⟨running, -⟩ := registered_of_opened (d.stack.openPartition_of_ok name opened)
    refine .inr ⟨name, values, start, negative, rfl, below, free, residue, fun sound => ?_,
      fun known tracked => ?_⟩
    · obtain ⟨_, e', result, -, -, -, contents⟩ := Engine.openPartition_open sound running name
      rw [residue, withPartition, result]
      exact contents
    · rw [residue, withPartition_of_tracked known tracked]
  | snapshot =>
    obtain ⟨which, same⟩ := snapshot_refused h
    exact .inl ⟨which.imp_right .inl, same⟩

/-- A name is asked for as a queue that is to begin below zero: the first has an instance of another
type, the second has none. -/
theorem refused_leaves_below_zero :
    let d := ((ofStack ⟨.new .empty, none, false, none⟩ 12 false false).ask
      (.openEntity "a" .string .signed)).2
    (d.ask (.openQueue "a" .string (-1))).2 = d ∧
      (d.ask (.openQueue "q" .string (-1))).2 = d.withPartition "q" := by
  intro d
  have other : (d.ask (.openQueue "a" .string (-1))).1 =
      .error (.invalidOperation (.otherType "a")) := by decide +kernel
  have negative : (d.ask (.openQueue "q" .string (-1))).1 =
      .error (.invalidOperation (.negativeHead (-1))) := by decide +kernel
  constructor
  · rcases refused_leaves d _ other with ⟨-, same⟩ | ⟨_, _, _, wrong, -⟩
    · exact same
    · cases wrong
  · rcases refused_leaves d _ negative with ⟨wrong | wrong | ⟨_, wrong⟩, -⟩ |
      ⟨name, values, start, -, asked, -, -, residue, -⟩
    · cases wrong
    · cases wrong
    · cases wrong
    · cases asked
      exact residue

/-- A refused queue is in the next backup, under a name for which nothing was ever made. -/
theorem refused_queue_stays :
    let settings : Settings := { Settings.default with backup := some ⟨"b", .cbor, 1⟩ }
    let opened := (Depot.open? settings (.new .empty)).1
    let d := opened.toOption.getD default
    let refused := d.ask (.openQueue "q" .string (-1))
    let names (d : Depot) := d.stack.platform.engine.names
    let tracked (d : Depot) := d.stack.keeper.map Keeper.trackedNames
    let backedUp (d : Depot) := d.snapshot.1.toOption.map BackupRecord.stores
    opened.isOk = true ∧ refused.1 = .error (.invalidOperation (.negativeHead (-1))) ∧
      names d = [] ∧ names refused.2 = ["q"] ∧
      tracked d = some [] ∧ tracked refused.2 = some ["q"] ∧
      backedUp d = some [] ∧ backedUp refused.2 = some ["q"] ∧ refused.2.instances = #[] := by
  decide +kernel

end Depot

end SnapshotStore
