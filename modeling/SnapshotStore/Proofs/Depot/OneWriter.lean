import SnapshotStore.Depot
import SnapshotStore.Proofs.Depot.Growth
import SnapshotStore.Proofs.Queue.Bounds
import SnapshotStore.Proofs.Trace

/-!
One writer for each partition. A depot makes an instance of a store over a partition that no other
instance has (`Depot.Distinct`), as long as no removal and no closing fails that has an instance to
give up. So the offsets that appends to a partition get are its own, and no append replaces what an
earlier one has put (`one_writer`).

A removal that fails gives the instance up nevertheless, and the next one shares its partition
(`one_writer_lost`).
-/

namespace SnapshotStore

open OrderedMap Engine

/-! ## Calls -/

/-- What is done with a depot and to what it stands on. -/
inductive DepotCall where
  | openEntity (name : String) (keys : KeyKind) (values : ValueKind)
  | openQueue (name : String) (values : ValueKind) (start : Int)
  | openSealed (name : String) (keys : KeyKind) (values : ValueKind) (encryptor : Encryptor)
  | openEnvelope (name : String) (keys : KeyKind) (values : ValueKind)
    (encryptor : Option Encryptor)
  /-- A call on a queue, whose items are of its kind. -/
  | queue (i : Nat) (call : (values : ValueKind) → QueueCall values.Carrier)
  /-- An operation on a store that is no queue. -/
  | write (i : Nat) (body : Operation Unit)
  | remove (name : String)
  | close
  | snapshot
  /-- From now on calls fail in another way. -/
  | outage (outage : Option Outage)
  | pass (micros : Nat)

namespace Depot

variable {d d' : Depot}

/-- The partition of an instance. -/
def partitionAt? (d : Depot) (i : Nat) : Option PartitionId :=
  d.instances[i]?.map StoreInstance.partition

/-- Makes a call on a queue: the partition and the offset of an item that it appends, and the depot
after it. -/
def useQueue (d : Depot) (i : Nat) (values : ValueKind) (call : QueueCall values.Carrier) :
    List (PartitionId × Int) × Depot :=
  let (result, d') := d.perform i ((d.queue i values).perform call)
  match result with
  | .ok (.offset offset) => ([((d.instanceAt i).partition, offset)], d')
  | _ => ([], d')

/-- Does a call: the partition and the offset of an item that it appends, and the depot after it. -/
def step (call : DepotCall) (d : Depot) : List (PartitionId × Int) × Depot :=
  match call with
  | .openEntity name keys values => ([], (d.openEntity name keys values).2)
  | .openQueue name values start => ([], (d.openQueue name values start).2)
  | .openSealed name keys values encryptor => ([], (d.openSealed name keys values encryptor).2)
  | .openEnvelope name keys values encryptor => ([], (d.openEnvelope name keys values encryptor).2)
  | .queue i call =>
    match d.instances[i]?.map StoreInstance.type with
    | some (.queue values) => d.useQueue i values (call values)
    | _ => ([], d)
  | .write i body =>
    match d.instances[i]?.map StoreInstance.type with
    | none | some (.queue _) => ([], d)
    | some _ => ([], (d.perform i body).2)
  | .remove name => ([], (d.remove name).2)
  | .close => ([], d.close.2)
  | .snapshot => ([], d.snapshot.2)
  | .outage outage => ([], { d with stack.platform.outage := outage })
  | .pass micros => ([], { d with stack.platform := d.stack.platform.pass micros })

/-- Whether a call gives up instances only if it succeeds. -/
def Sure (call : DepotCall) (d : Depot) : Prop :=
  match call with
  | .remove name => (d.remove name).1 = .ok () ∨ d.current.get? name = none
  | .close => d.close.1 = .ok () ∨ d.current = .empty
  | _ => True

/-! ## Instances and partitions -/

/-- Whether each instance has a partition of its own, and is the one of each name under which the
partition is registered. -/
structure Distinct (d : Depot) : Prop where
  sound : d.stack.platform.engine.Sound
  exist : ∀ {i id}, d.partitionAt? i = some id → id < d.stack.platform.engine.partitions.size
  alone : ∀ {i j id}, d.partitionAt? i = some id → d.partitionAt? j = some id → i = j
  known : d.stack.platform.engine.isClosed = false → ∀ {name i id},
    d.stack.platform.engine.registered.get? name = some id → d.partitionAt? i = some id →
      d.current.get? name = some i

/-- Instances stay distinct while none is made, if the names stay with theirs that are registered. -/
theorem Distinct.grows (h : d.Distinct)
    (grows : Grows d.stack.platform.engine d'.stack.platform.engine)
    (same : ∀ i, d'.partitionAt? i = d.partitionAt? i)
    (keeps : d'.stack.platform.engine.isClosed = false → ∀ {name id},
      d'.stack.platform.engine.registered.get? name = some id →
        d'.current.get? name = d.current.get? name) : d'.Distinct where
  sound := grows.sound h.sound
  exist := fun has => Nat.lt_of_lt_of_le (h.exist (same _ ▸ has)) grows.size
  alone := fun has has' => h.alone (same _ ▸ has) (same _ ▸ has')
  known := by
    intro opened name i id known has
    rw [same] at has
    rw [keeps opened known]
    refine h.known ?_ (grows.known known (h.exist has)) has
    cases closed : d.stack.platform.engine.isClosed with
    | true => exact (grows.closed closed).symm.trans opened
    | false => rfl

/-! ## Instances that are made -/

/-- What comes of making an instance of a type for a name: nothing that was registered is registered
anew, and the instance has the partition that the engine opens under the name. -/
inductive Built (name : String) (type : StoreType) (s : Stack) :
    Except StoreError StoreInstance × Stack → Prop where
  | failed {e : StoreError} {s' : Stack} (grows : Grows s.platform.engine s'.platform.engine) :
    Built name type s (.error e, s')
  | made {store : StoreInstance} {s' : Stack} {e : Engine} (type_eq : store.type = type)
    (opened : s.platform.engine.openPartition name = (.ok store.partition, e))
    (same : SameNames e s'.platform.engine)
    (floor : ∀ values, type = .queue values → -Queue.offsetLimit ≤ store.tail) :
    Built name type s (.ok store, s')

theorem built_build (name : String) (type : StoreType) (encryptor : Option Encryptor) (s : Stack) :
    Built name type s (build name type encryptor s) := by
  have grows := s.grows_openPartition name
  have acted := @Stack.openPartition_of_ok s name
  rw [build]
  generalize s.openPartition name = opened at grows acted
  obtain ⟨result, s'⟩ := opened
  cases result with
  | error e => exact .failed grows
  | ok partition => exact .made rfl (acted rfl) (.refl _) fun _ _ => (by decide : -Queue.offsetLimit ≤ 0)

theorem sameNames_runOperation {α : Type} (partition : PartitionId) (op : Operation α) (s : Stack)
    (head tail : Int) :
    SameNames s.platform.engine (runOperation partition op s head tail).2.1.platform.engine :=
  Operation.runAlone_keeps _ (P := fun base => SameNames s.platform.engine base.platform.engine)
    (fun c base same => same.trans (base.sameNames_call partition c)) op (s := ⟨s, head, tail⟩)
    (.refl _)

/-- An instance of a queue over the partition of a name. -/
def buildQueue (d : Depot) (name : String) (values : ValueKind) (start : Int) (s : Stack) :
    Except StoreError StoreInstance × Stack :=
  match build name (.queue values) none s with
  | (.error e, s) => (.error e, s)
  | (.ok store, s) =>
    let items : EntityStore Int64 values.Carrier :=
      ⟨name, Layout.json .signed values, Shards.ofCount d.shardCount fun _ => 0⟩
    match runOperation store.partition (Queue.mk items |>.recover start) s 0 0 with
    | (.error e, s, _, _) => (.error e, s)
    | (.ok (), s, head, tail) => (.ok { store with head, tail }, s)

theorem openQueue_eq (d : Depot) (name : String) (values : ValueKind) (start : Int) :
    d.openQueue name values start =
      d.cached name (.queue values) (d.buildQueue name values start) := rfl

theorem built_buildQueue (d : Depot) (name : String) (values : ValueKind) (start : Int)
    (s : Stack) : Built name (.queue values) s (d.buildQueue name values start s) := by
  have built := built_build name (.queue values) none s
  rw [buildQueue]
  generalize build name (.queue values) none s = begun at built
  cases built with
  | failed grows => exact .failed grows
  | @made store s₁ e type_eq opened same _ =>
    let q : Queue values.Carrier :=
      ⟨⟨name, Layout.json .signed values, Shards.ofCount d.shardCount fun _ => 0⟩⟩
    have recovers := same.trans (sameNames_runOperation store.partition (q.recover start) s₁ 0 0)
    have floor : (runOperation store.partition (q.recover start) s₁ 0 0).1 = .ok () →
        -Queue.offsetLimit ≤ (runOperation store.partition (q.recover start) s₁ 0 0).2.2.2 :=
      q.tail_of_recover (fun c s => Stack.call s store.partition c) ⟨s₁, 0, 0⟩
    dsimp only
    generalize runOperation store.partition (q.recover start) s₁ 0 0 = ran at recovers floor
    obtain ⟨result, s₂, head, tail⟩ := ran
    have grown : Grows s.platform.engine e := by
      have grows := s.platform.engine.grows_openPartition name
      rwa [opened] at grows
    cases result with
    | error e => exact .failed (grown.trans recovers.grows)
    | ok _ => exact .made type_eq opened recovers fun _ _ => floor rfl

/-- The depot with an instance that was made for a name. -/
def withInstance (d : Depot) (name : String) (store : StoreInstance) (stack : Stack) : Depot :=
  { d with
    stack
    current := d.current.insert name d.instances.size
    instances := d.instances.push store }

theorem partitionAt?_withInstance (d : Depot) (name : String) (store : StoreInstance)
    (stack : Stack) (i : Nat) :
    (d.withInstance name store stack).partitionAt? i =
      if i = d.instances.size then some store.partition else d.partitionAt? i := by
  rw [partitionAt?, withInstance, Array.getElem?_push]
  split <;> rfl

/-- An engine that opens a name has it registered, under a handle that is new or was registered. -/
theorem registered_of_opened {e e' : Engine} {name : String} {id : PartitionId}
    (opened : e.openPartition name = (.ok id, e')) :
    e.isClosed = false ∧ e'.registered.get? name = some id ∧
      (e.registered.get? name = some id ∨ id = e.partitions.size) := by
  rw [openPartition] at opened
  split at opened
  · cases opened
  · rename_i open'
    refine ⟨Bool.eq_false_iff.2 open', ?_⟩
    split at opened
    · rename_i known
      cases opened
      exact ⟨known, .inl known⟩
    · cases opened
      exact ⟨(get?_insert _ _ _ _).trans (if_pos rfl), .inr rfl⟩

/-- An engine that has removed a name does not have it registered. -/
theorem registered_of_removed {e e' : Engine} {name : String}
    (removed : e.removePartition name = (.ok (), e')) : e'.registered.get? name = none := by
  have given := registered_of_removePartition (congrArg Prod.fst removed)
  rwa [removed] at given

/-- An instance that is made for a name without one has a partition of its own. -/
theorem Distinct.withInstance (h : d.Distinct) {name : String} {store : StoreInstance}
    {stack : Stack} {e : Engine} (free : d.current.get? name = none)
    (opened : d.stack.platform.engine.openPartition name = (.ok store.partition, e))
    (same : SameNames e stack.platform.engine) : (d.withInstance name store stack).Distinct := by
  obtain ⟨running, registered, origin⟩ := registered_of_opened opened
  have grows : Grows d.stack.platform.engine stack.platform.engine := by
    have grows := d.stack.platform.engine.grows_openPartition name
    rw [opened] at grows
    exact grows.trans same.grows
  have sound := grows.sound h.sound
  rw [← same.registered] at registered
  -- No instance has the partition yet: the name would have it as its own.
  have new : ∀ i, d.partitionAt? i ≠ some store.partition := by
    intro i has
    rcases origin with known | next
    · rw [h.known running known has] at free
      cases free
    · exact absurd (h.exist has) (Nat.not_lt.2 next.ge)
  refine ⟨sound, fun {i id} has => ?_, fun {i j id} has has' => ?_, fun _ {other i id} known has => ?_⟩
  · rw [partitionAt?_withInstance] at has
    split at has
    · cases has
      exact sound.exist registered
    · exact Nat.lt_of_lt_of_le (h.exist has) grows.size
  · rw [partitionAt?_withInstance] at has has'
    split at has <;> split at has'
    · rename_i first second
      rw [first, second]
    · cases has
      exact absurd has' (new j)
    · cases has'
      exact absurd has (new i)
    · exact h.alone has has'
  · rw [partitionAt?_withInstance] at has
    show (d.current.insert name d.instances.size).get? other = _
    rw [get?_insert]
    split at has
    · rename_i last
      cases has
      rw [if_pos (sound.apart registered known), last]
    · have before := h.known running (grows.known known (h.exist has)) has
      rw [if_neg]
      · exact before
      · rintro rfl
        rw [free] at before
        cases before

/-! ## What is given -/

/-- Whether an instance is a queue over a partition and ends at an offset. -/
def EndsAt (d : Depot) (i : Nat) (id : PartitionId) (tail : Int) : Prop :=
  ∃ store values, d.instances[i]? = some store ∧ store.type = .queue values ∧
    store.partition = id ∧ store.tail = tail

/-- Whether each partition is that of one instance at most, and the offsets that were given differ
and do not lie behind the ends of the queues that gave them. -/
structure Orderly (d : Depot) (given : List (PartitionId × Int)) : Prop where
  distinct : d.Distinct
  floor : ∀ {i id tail}, d.EndsAt i id tail → -Queue.offsetLimit ≤ tail
  nodup : given.Nodup
  below : ∀ p ∈ given, -Queue.offsetLimit ≤ p.2 ∧ ∃ i tail, d.EndsAt i p.1 tail ∧ p.2 ≤ tail

variable {given : List (PartitionId × Int)}

theorem Orderly.grows (h : d.Orderly given)
    (grows : Grows d.stack.platform.engine d'.stack.platform.engine)
    (same : d'.instances = d.instances)
    (keeps : d'.stack.platform.engine.isClosed = false → ∀ {name id},
      d'.stack.platform.engine.registered.get? name = some id →
        d'.current.get? name = d.current.get? name) : d'.Orderly given := by
  have ends : ∀ i id tail, d'.EndsAt i id tail = d.EndsAt i id tail := by
    intro i id tail
    rw [EndsAt, same, EndsAt]
  refine ⟨?_, fun {i id tail} at' => ?_, h.nodup, fun p mem => ?_⟩
  · exact h.distinct.grows grows (fun i => by rw [partitionAt?, same, partitionAt?]) keeps
  · exact h.floor (ends .. ▸ at')
  · obtain ⟨low, i, tail, at', le⟩ := h.below p mem
    exact ⟨low, i, tail, (ends ..).symm ▸ at', le⟩

theorem Orderly.cached (h : d.Orderly given) {name : String} {type : StoreType}
    {build : Stack → Except StoreError StoreInstance × Stack}
    (built : Built name type d.stack (build d.stack)) :
    (d.cached name type build).2.Orderly given := by
  rw [Depot.cached]
  cases free : d.current.get? name with
  | some i =>
    dsimp only
    split <;> exact h
  | none =>
    dsimp only
    generalize build d.stack = made at built
    cases built with
    | failed grows => exact h.grows grows rfl fun _ _ _ _ => rfl
    | @made store s' e type_eq opened same floor =>
      refine ⟨h.distinct.withInstance free opened same, fun {i id tail} at' => ?_, h.nodup,
        fun p mem => ?_⟩
      · obtain ⟨store', values, has, queue, partition, rfl⟩ := at'
        rw [Array.getElem?_push] at has
        split at has
        · cases has
          exact floor values (type_eq.symm.trans queue)
        · exact h.floor ⟨store', values, has, queue, rfl, rfl⟩
      · obtain ⟨low, i, tail, ⟨store', values, has, rest⟩, le⟩ := h.below p mem
        refine ⟨low, i, tail, ⟨store', values, ?_, rest⟩, le⟩
        rw [Array.getElem?_push, if_neg]
        · exact has
        · rintro rfl
          rw [Array.getElem?_size] at has
          cases has

/-- What is done to one instance leaves its type and its partition, and moves the end of a queue
forward at most. -/
theorem Orderly.change (h : d.Orderly given) {i : Nat} {store : StoreInstance}
    (has : d.instances[i]? = some store) (store' : StoreInstance) {stack : Stack}
    (same : SameNames d.stack.platform.engine stack.platform.engine)
    (type : store'.type = store.type) (partition : store'.partition = store.partition)
    (onward : ∀ values, store.type = .queue values → store.tail ≤ store'.tail) :
    Orderly { d with stack, instances := d.instances.setIfInBounds i store' } given := by
  have inside : i < d.instances.size := (Array.getElem?_eq_some_iff.1 has).1
  have changed : ∀ j, (d.instances.setIfInBounds i store')[j]? =
      if i = j then some store' else d.instances[j]? := by
    intro j
    rw [Array.getElem?_setIfInBounds]
    by_cases here : i = j
    · rw [if_pos here, if_pos here, if_pos inside]
    · rw [if_neg here, if_neg here]
  refine ⟨h.distinct.grows same.grows (fun j => ?_) fun _ _ _ _ => rfl, ?_, h.nodup, ?_⟩
  · rw [partitionAt?, changed, partitionAt?]
    split
    · rename_i here
      rw [← here, has]
      exact congrArg some partition
    · rfl
  · rintro j id tail ⟨store₁, values, has₁, queue, rfl, rfl⟩
    rw [changed] at has₁
    split at has₁
    · cases has₁
      rw [type] at queue
      exact (h.floor ⟨store, values, has, queue, rfl, rfl⟩).trans (onward values queue)
    · exact h.floor ⟨store₁, values, has₁, queue, rfl, rfl⟩
  · intro p mem
    obtain ⟨low, j, tail, ⟨store₁, values, has₁, queue, at', rfl⟩, le⟩ := h.below p mem
    by_cases here : i = j
    · rw [here, has₁] at has
      cases has
      refine ⟨low, j, store'.tail, ⟨store', values, ?_, type.trans queue, partition.trans at', rfl⟩,
        le.trans (onward values queue)⟩
      rw [changed, if_pos here]
    · refine ⟨low, j, _, ⟨store₁, values, ?_, queue, at', rfl⟩, le⟩
      rw [changed, if_neg here]
      exact has₁

/-- What a partition was given lies before the end of any queue over it. -/
theorem Orderly.le_tail (h : d.Orderly given) {i : Nat} {store : StoreInstance}
    (has : d.instances[i]? = some store) {offset : Int} (mem : (store.partition, offset) ∈ given) :
    -Queue.offsetLimit ≤ offset ∧ offset ≤ store.tail := by
  obtain ⟨low, j, tail, ⟨store', values, has', -, at', rfl⟩, le⟩ := h.below _ mem
  have first : d.partitionAt? i = some store.partition := by
    rw [partitionAt?, has]
    rfl
  have second : d.partitionAt? j = some store.partition := by
    rw [partitionAt?, has']
    exact congrArg some at'
  have here : i = j := h.distinct.alone first second
  rw [← here, has] at has'
  cases has'
  exact ⟨low, le⟩

/-- The offset behind the end of a queue was not given. -/
theorem Orderly.give (h : d.Orderly given) {i : Nat} {id : PartitionId} {tail : Int}
    (given' : d.EndsAt i id (tail + 1)) (fresh : ∀ o, (id, o) ∈ given → o ≤ tail) :
    d.Orderly (given ++ [(id, tail + 1)]) := by
  refine ⟨h.distinct, h.floor, ?_, ?_⟩
  · refine List.nodup_append.2 ⟨h.nodup, List.pairwise_singleton _ _, ?_⟩
    rintro ⟨id', o⟩ mem _ mem' rfl
    cases List.mem_singleton.1 mem'
    have := fresh _ mem
    omega
  · refine List.forall_mem_append.2 ⟨h.below, List.forall_mem_singleton.2 ?_⟩
    exact ⟨h.floor given', i, _, given', le_refl _⟩

/-! ## Steps -/

theorem instanceAt_of_getElem? {i : Nat} {store : StoreInstance}
    (has : d.instances[i]? = some store) : d.instanceAt i = store := by
  rw [instanceAt, Array.getD_eq_getD_getElem?, has]
  rfl

/-- An operation on an instance moves its bounds, and changes the stack through its partition. -/
theorem perform_eq {α : Type} {i : Nat} {store : StoreInstance} (has : d.instances[i]? = some store)
    (op : Operation α) :
    d.perform i op =
      let ran := runOperation store.partition op d.stack store.head store.tail
      (ran.1, { d with
        stack := ran.2.1
        instances :=
          d.instances.setIfInBounds i { store with head := ran.2.2.1, tail := ran.2.2.2 } }) := by
  rw [perform, instanceAt_of_getElem? has]

theorem Orderly.useQueue (h : d.Orderly given) {i : Nat} {store : StoreInstance}
    (has : d.instances[i]? = some store) {values : ValueKind} (queue : store.type = .queue values)
    (call : QueueCall values.Carrier) :
    (d.useQueue i values call).2.Orderly (given ++ (d.useQueue i values call).1) := by
  have same := sameNames_runOperation store.partition ((d.queue i values).perform call) d.stack
    store.head store.tail
  have moves := (d.queue i values).tail_perform call (fun c s => Stack.call s store.partition c)
    ⟨d.stack, store.head, store.tail⟩
  rw [Depot.useQueue, perform_eq has, instanceAt_of_getElem? has]
  change (runOperation store.partition ((d.queue i values).perform call) d.stack store.head
      store.tail).1 = _ ∧ (runOperation _ _ _ _ _).2.2.2 = _ ∨
    (∀ offset, (runOperation _ _ _ _ _).1 ≠ _) ∧ (runOperation _ _ _ _ _).2.2.2 = _ at moves
  generalize runOperation store.partition ((d.queue i values).perform call) d.stack store.head
    store.tail = ran at same moves
  obtain ⟨result, stack, head, tail⟩ := ran
  rcases moves with ⟨rfl, rfl⟩ | ⟨other, rfl⟩
  · have after := h.change has { store with head, tail := store.tail + 1 } same rfl rfl
      fun _ _ => (Int.lt_succ _).le
    refine after.give (i := i) ?_ fun offset mem => (h.le_tail has mem).2
    have inside : i < d.instances.size := (Array.getElem?_eq_some_iff.1 has).1
    exact ⟨_, values, Array.getElem?_setIfInBounds_self_of_lt inside, queue, rfl, rfl⟩
  · have after := h.change has { store with head } same rfl rfl fun _ _ => le_refl _
    rw [← List.append_nil given] at after
    match result with
    | .ok (.offset offset) => exact absurd rfl (other offset)
    | .ok (.removal _) | .ok (.items _) | .error _ => exact after

theorem Orderly.write (h : d.Orderly given) {i : Nat} {store : StoreInstance}
    (has : d.instances[i]? = some store) (kind : ∀ values, store.type ≠ .queue values)
    (body : Operation Unit) : (d.perform i body).2.Orderly given := by
  rw [perform_eq has]
  exact h.change has _ (sameNames_runOperation store.partition body d.stack store.head store.tail)
    rfl rfl fun values queue => absurd queue (kind values)

theorem Orderly.remove (h : d.Orderly given) {name : String} (sure : Sure (.remove name) d) :
    (d.remove name).2.Orderly given := by
  have grows := d.stack.grows_removePartition name
  have acted := d.stack.removePartition_of_ok name
  rw [Sure, Depot.remove] at sure
  rw [Depot.remove]
  generalize d.stack.removePartition name = removed at grows acted sure
  obtain ⟨result, stack⟩ := removed
  refine h.grows grows rfl fun _ {other id} known => ?_
  show (d.current.erase name).get? other = _
  rw [get?_erase]
  split
  · rename_i here
    rcases sure with removed | free
    · cases result with
      | error e => cases removed
      | ok _ =>
        rw [← here, registered_of_removed (acted rfl)] at known
        cases known
    · rw [← here, free]
  · rfl

theorem Orderly.close (h : d.Orderly given) (sure : Sure .close d) :
    d.close.2.Orderly given := by
  have grows := d.stack.grows_close
  have acted := d.stack.closed_of_close
  rw [Sure, Depot.close] at sure
  rw [Depot.close]
  generalize d.stack.close = closed at grows acted sure
  obtain ⟨result, stack⟩ := closed
  refine h.grows grows rfl fun opened {name id} _ => ?_
  show OrderedMap.empty.get? name = _
  rcases sure with closed | unused
  · cases result with
    | error e => cases closed
    | ok _ => exact absurd (acted rfl) (Bool.eq_false_iff.1 opened)
  · rw [unused]

theorem Orderly.snapshot (h : d.Orderly given) : d.snapshot.2.Orderly given := by
  rw [Depot.snapshot]
  split
  · exact h.grows (Stack.grows_keep _ _ _) rfl fun _ _ _ _ => rfl
  · exact h

/-- A call keeps a depot orderly, and what it gives was not given before. -/
theorem Orderly.step (h : d.Orderly given) {call : DepotCall} (sure : Sure call d) :
    (step call d).2.Orderly (given ++ (step call d).1) := by
  have silent : ∀ {d' : Depot}, d'.Orderly given → d'.Orderly (given ++ []) := by
    intro d' h'
    rwa [List.append_nil]
  cases call with
  | openEntity name keys values => exact silent (h.cached (built_build ..))
  | openQueue name values start => exact silent (h.cached (built_buildQueue ..))
  | openSealed name keys values encryptor => exact silent (h.cached (built_build ..))
  | openEnvelope name keys values encryptor => exact silent (h.cached (built_build ..))
  | queue i call =>
    rw [Depot.step]
    cases has : d.instances[i]? with
    | none => exact silent h
    | some store =>
      cases type : store.type with
      | queue values =>
        simp only [Option.map_some, type]
        exact h.useQueue has type (call values)
      | _ =>
        simp only [Option.map_some, type]
        exact silent h
  | write i body =>
    rw [Depot.step]
    cases has : d.instances[i]? with
    | none => exact silent h
    | some store =>
      cases type : store.type with
      | queue values =>
        simp only [Option.map_some, type]
        exact silent h
      | _ =>
        simp only [Option.map_some, type]
        exact silent (h.write has (by rw [type]; exact nofun) body)
  | remove name => exact silent (h.remove sure)
  | close => exact silent (h.close sure)
  | snapshot => exact silent h.snapshot
  | outage _ | pass _ => exact silent (h.grows (.refl _) rfl fun _ _ _ _ => rfl)

theorem Orderly.run (h : d.Orderly given) {calls : List DepotCall}
    (sure : Along Depot.step Sure calls d) :
    (after Depot.step calls d).Orderly (given ++ (trace Depot.step calls d).flatten) := by
  induction calls generalizing d given with
  | nil =>
    rw [trace, List.flatten_nil, List.append_nil]
    exact h
  | cons call calls ih =>
    rw [trace_cons, List.flatten_cons, ← List.append_assoc]
    exact ih (h.step sure.1) sure.2

theorem orderly_of_unused (sound : d.stack.platform.engine.Sound) (unused : d.instances = #[]) :
    d.Orderly [] := by
  have none : ∀ i : Nat, d.instances[i]? = none := by
    intro i
    rw [unused]
    rfl
  have without : ∀ i id, d.partitionAt? i ≠ some id := by
    intro i id has
    rw [partitionAt?, none] at has
    cases has
  refine ⟨⟨sound, fun {i id} has => ?_, fun {i j id} has => ?_, fun _ {name i id} _ has => ?_⟩, ?_,
    List.nodup_nil, nofun⟩
  · exact absurd has (without i id)
  · exact absurd has (without i id)
  · exact absurd has (without i id)
  · rintro i id tail ⟨store, values, has, -⟩
    rw [none] at has
    cases has

/-! ## What appends leave -/

/-- What a partition holds under the key of an offset. -/
def entryAt? (d : Depot) (id : PartitionId) (offset : Int) : Option Bytes :=
  (d.stack.platform.engine.partition id).entries.get?
    (KeyKind.signedCodec.encode (Queue.key offset))

/-- An append does nothing to the stack but put the item behind the last one. -/
theorem stack_useQueue_append {i : Nat} {store : StoreInstance} (has : d.instances[i]? = some store)
    {values : ValueKind} (item : values.Carrier) :
    (d.useQueue i values (.append item)).2.stack =
      (d.stack.call store.partition (.put (KeyKind.signedCodec.encode (Queue.key (store.tail + 1)))
        ((d.queue i values).items.layout.values.encode item))).2 := by
  have performed : (d.useQueue i values (.append item)).2 =
      (d.perform i ((d.queue i values).perform (.append item))).2 := by
    rw [Depot.useQueue]
    dsimp only
    split <;> rfl
  rw [performed, perform_eq has]
  exact (d.queue i values).base_perform_append item (fun c s => Stack.call s store.partition c)
    ⟨d.stack, store.head, store.tail⟩

/-- An append puts nothing under the offsets that were given before. -/
theorem Orderly.entryAt?_append (h : d.Orderly given) {i : Nat} {store : StoreInstance}
    (has : d.instances[i]? = some store) {values : ValueKind} (item : values.Carrier)
    (room : store.tail + 1 < Queue.offsetLimit) {offset : Int}
    (mem : (store.partition, offset) ∈ given) :
    (d.useQueue i values (.append item)).2.entryAt? store.partition offset =
      d.entryAt? store.partition offset := by
  obtain ⟨low, le⟩ := h.le_tail has mem
  have other := Queue.encode_key_ne low (Int.lt_add_one_of_le le) room
  have inside : store.partition < d.stack.platform.engine.partitions.size := by
    refine h.distinct.exist (i := i) ?_
    rw [partitionAt?, has]
    rfl
  rw [entryAt?, stack_useQueue_append has]
  rcases d.stack.engine_call_put store.partition _ _ with same | put
  · rw [same, entryAt?]
  · rw [put, Engine.partition_call _ _ _ _ inside, if_pos rfl, entryAt?]
    exact (get?_insert ..).trans (if_neg other.symm)

end Depot

/-- Each partition of a depot has one writer. As long as no removal and no closing fails that has an
instance to give up, any two instances over a partition are the same, a name whose partition is still
registered is answered with its instance, no offset is given twice, and an append leaves what was put
under the offsets that were given before. -/
theorem one_writer {d : Depot} (sound : d.stack.platform.engine.Sound)
    (unused : d.instances = #[]) {calls : List DepotCall}
    (sure : Along Depot.step Depot.Sure calls d) :
    let last := after Depot.step calls d
    let given := (trace Depot.step calls d).flatten
    (∀ i j id, last.partitionAt? i = some id → last.partitionAt? j = some id → i = j) ∧
      (∀ i store name values start, last.instances[i]? = some store →
        last.stack.platform.engine.isClosed = false →
          last.stack.platform.engine.registered.get? name = some store.partition →
            store.type = .queue values → last.openQueue name values start = (.ok i, last)) ∧
      given.Nodup ∧
      ∀ i store values, ∀ item : ValueKind.Carrier values, last.instances[i]? = some store →
        store.tail + 1 < Queue.offsetLimit → ∀ offset, (store.partition, offset) ∈ given →
          (last.useQueue i values (.append item)).2.entryAt? store.partition offset =
            last.entryAt? store.partition offset := by
  have orderly := (Depot.orderly_of_unused sound unused).run sure
  rw [List.nil_append] at orderly
  intro last given
  refine ⟨fun i j id => orderly.distinct.alone, ?_, orderly.nodup, ?_⟩
  · intro i store name values start has opened known queue
    have at' : last.partitionAt? i = some store.partition := by
      rw [Depot.partitionAt?, has]
      rfl
    rw [Depot.openQueue_eq, Depot.cached, orderly.distinct.known opened known at']
    dsimp only
    rw [Depot.instanceAt, Array.getD_eq_getD_getElem?, has, Option.getD_some, if_pos queue]
  · intro i store values item has room offset mem
    exact orderly.entryAt?_append has item room mem

/-- A queue is removed and opened again, which fails first; both instances are used after that. -/
theorem one_writer_removed :
    let append (i : Nat) (text : String) : DepotCall :=
      .queue i fun
        | .string => .append text
        | _ => .batch 0 1
    let failing : Outage := ⟨[], false, [(Outage.openName, "down")], false⟩
    let d := Depot.ofStack ⟨.new .empty, none, false, none⟩ 12 false false
    let calls : List DepotCall := [.openQueue "q" .string 0, append 0 "x", .remove "q",
      .outage (some failing), .openQueue "q" .string 0, .outage none, .openQueue "q" .string 5,
      append 0 "y", append 1 "z"]
    let last := after Depot.step calls d
    (trace Depot.step calls d).flatten = [(0, 0), (0, 1), (1, 5)] ∧
      last.partitionAt? 0 = some 0 ∧ last.partitionAt? 1 = some 1 ∧
      last.openQueue "q" .string 9 = (.ok 1, last) ∧
      (last.useQueue 1 .string (.append "w")).2.entryAt? 1 5 = last.entryAt? 1 5 := by
  intro append failing d calls last
  have sure : Along Depot.step Depot.Sure calls d :=
    ⟨trivial, trivial, .inl (by decide +kernel), trivial, trivial, trivial, trivial, trivial, trivial,
      trivial⟩
  obtain ⟨-, found, -, left⟩ := one_writer Engine.sound_empty rfl sure
  have given : (trace Depot.step calls d).flatten = [(0, 0), (0, 1), (1, 5)] := by decide +kernel
  obtain ⟨store, has⟩ : ∃ store, last.instances[1]? = some store := by
    refine Option.isSome_iff_exists.1 ?_
    decide +kernel
  have known : last.instances[1]?.map (fun store => (store.partition, store.tail, store.type)) =
      some (1, 5, .queue .string) := by
    decide +kernel
  rw [has] at known
  obtain ⟨partition, tail, type⟩ : store.partition = 1 ∧ store.tail = 5 ∧ store.type = .queue .string := by
    simpa using known
  refine ⟨given, by decide +kernel, by decide +kernel, ?_, ?_⟩
  · refine found 1 store "q" .string 9 has (by decide +kernel) ?_ type
    rw [partition]
    decide +kernel
  · have same := left 1 store .string "w" has (by rw [tail]; decide) 5
    rw [partition, given] at same
    exact same (by decide)

/-- A removal that fails gives an instance up whose partition is still registered: the next instance
has it too, both give the same offset, and the item of one is lost. -/
theorem one_writer_lost :
    let append (i : Nat) (text : String) : DepotCall :=
      .queue i fun
        | .string => .append text
        | _ => .batch 0 1
    let failing : Outage := ⟨[], false, [(Outage.removeName, "down")], false⟩
    let d := Depot.ofStack ⟨.new .empty, none, false, none⟩ 12 false false
    let calls : List DepotCall := [.openQueue "q" .string 0, append 0 "x", .outage (some failing),
      .remove "q", .outage none, .openQueue "q" .string 0, append 0 "y"]
    let last := after Depot.step calls d
    let next := Depot.step (append 1 "z") last
    last.partitionAt? 0 = some 0 ∧ last.partitionAt? 1 = some 0 ∧
      last.stack.platform.engine.registered.get? "q" = some 0 ∧
      (trace Depot.step calls d).flatten = [(0, 0), (0, 1)] ∧ next.1 = [(0, 1)] ∧
      last.entryAt? 0 1 = some (Utf8.encode "\"y\"") ∧
      next.2.entryAt? 0 1 = some (Utf8.encode "\"z\"") := by
  decide +kernel

end SnapshotStore
