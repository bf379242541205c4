import SnapshotStore.Proofs.Partition
import SnapshotStore.Store.Engine

/-!
The engine through its contents: the entries of each registered name. In a sound engine each handle
that is registered belongs to one name (`Sound`), so that a call on a handle changes the entries of
that name and of no other (`contents_put`).
-/

namespace SnapshotStore.Engine

open OrderedMap

variable {e : Engine} {name : String} {id : PartitionId}

/-- The entries of the registered partitions, by name. -/
def contents (e : Engine) : OrderedMap String (OrderedMap Bytes Bytes) :=
  e.registered.map fun _ id => (e.partition id).entries

/-- The entries of a name; one that is not registered has none. -/
def entriesOf (e : Engine) (name : String) : OrderedMap Bytes Bytes :=
  (e.contents.get? name).getD .empty

theorem get?_contents (e : Engine) (name : String) :
    e.contents.get? name = (e.registered.get? name).map fun id => (e.partition id).entries :=
  get?_map _ _ _

theorem isSome_contents (e : Engine) (name : String) :
    (e.contents.get? name).isSome = (e.registered.get? name).isSome := by
  rw [get?_contents, Option.isSome_map]

theorem entriesOf_registered (h : e.registered.get? name = some id) :
    e.entriesOf name = (e.partition id).entries := by
  rw [entriesOf, get?_contents, h]
  rfl

/-- Registered handles exist, and each belongs to one name. -/
structure Sound (e : Engine) : Prop where
  exist : ∀ {name id}, e.registered.get? name = some id → id < e.partitions.size
  apart : ∀ {name name' id}, e.registered.get? name = some id →
    e.registered.get? name' = some id → name = name'

theorem sound_empty : Sound empty := ⟨nofun, nofun⟩

/-! ## Partitions by handle -/

theorem partition_push {partitions : Array Partition} {registered : OrderedMap String PartitionId}
    {closed : Bool} (p : Partition) (h : id < partitions.size) :
    Engine.partition ⟨partitions.push p, registered, closed⟩ id =
      Engine.partition ⟨partitions, registered, closed⟩ id := by
  rw [partition, partition, Array.getD_eq_getD_getElem?, Array.getD_eq_getD_getElem?,
    Array.getElem?_push_lt h, Array.getElem?_eq_getElem h]

theorem partition_push_last {partitions : Array Partition}
    {registered : OrderedMap String PartitionId} {closed : Bool} (p : Partition) :
    Engine.partition ⟨partitions.push p, registered, closed⟩ partitions.size = p := by
  rw [partition, Array.getD_eq_getD_getElem?, Array.getElem?_push_size]
  rfl

theorem partition_call (e : Engine) (id other : PartitionId) (c : Call)
    (h : other < e.partitions.size) :
    (e.call id c).2.partition other =
      if id = other then ((e.partition id).call c).2 else e.partition other := by
  show (e.partitions.setIfInBounds id _).getD other default = _
  rw [Array.getD_eq_getD_getElem?, Array.getElem?_setIfInBounds]
  by_cases same : id = other
  · subst same
    rw [if_pos rfl, if_pos rfl, if_pos h]
    rfl
  · rw [if_neg same, if_neg same, partition, Array.getD_eq_getD_getElem?]

/-! ## Opening and removing -/

/-- Opening leaves the engine, or registers the next handle under a name that has none. -/
theorem after_openPartition (e : Engine) (name : String) :
    (e.openPartition name).2 = e ∨ e.registered.get? name = none ∧ (e.openPartition name).2 =
      { e with
        partitions := e.partitions.push (.empty name)
        registered := e.registered.insert name e.partitions.size } := by
  rw [openPartition]
  split
  · exact .inl rfl
  · split
    · exact .inl rfl
    · rename_i absent
      exact .inr ⟨absent, rfl⟩

/-- Removing leaves the engine, or clears the partition of a name and gives the name up. -/
theorem after_removePartition (e : Engine) (name : String) :
    (e.removePartition name).2 = e ∨ ∃ id, (e.removePartition name).2 =
      { e with
        partitions := e.partitions.modify id Partition.clear
        registered := e.registered.erase name } := by
  rw [removePartition]
  split
  · exact .inl rfl
  · split
    · exact .inr ⟨_, rfl⟩
    · exact .inl rfl

theorem size_openPartition (e : Engine) (name : String) :
    e.partitions.size ≤ (e.openPartition name).2.partitions.size := by
  rcases e.after_openPartition name with same | ⟨-, next⟩
  · exact Nat.le_of_eq (congrArg (fun e : Engine => e.partitions.size) same.symm)
  · rw [next, Array.size_push]
    exact Nat.le_succ _

theorem size_removePartition (e : Engine) (name : String) :
    (e.removePartition name).2.partitions.size = e.partitions.size := by
  rcases e.after_removePartition name with same | ⟨id, given⟩
  · rw [same]
  · rw [given, Array.size_modify]

theorem isClosed_openPartition (e : Engine) (name : String) :
    (e.openPartition name).2.isClosed = e.isClosed := by
  rcases e.after_openPartition name with same | ⟨-, next⟩
  · rw [same]
  · rw [next]

theorem isClosed_removePartition (e : Engine) (name : String) :
    (e.removePartition name).2.isClosed = e.isClosed := by
  rcases e.after_removePartition name with same | ⟨id, given⟩
  · rw [same]
  · rw [given]

theorem openPartition_closed (h : e.isClosed = true) (name : String) :
    e.openPartition name = (.error .closed, e) := by
  rw [openPartition, if_pos h]

/-- Opening registers a name with the entries that it has, or none. -/
theorem openPartition_open (sound : e.Sound) (h : e.isClosed = false) (name : String) :
    ∃ id e', e.openPartition name = (.ok id, e') ∧ e'.Sound ∧ e'.isClosed = false ∧
      e'.registered.get? name = some id ∧ e'.contents = e.contents.insert name (e.entriesOf name) := by
  rw [openPartition, h, if_neg Bool.false_ne_true]
  cases hr : e.registered.get? name with
  | some id =>
    refine ⟨id, e, rfl, sound, h, hr, ext_get? fun other => ?_⟩
    rw [get?_insert]
    split
    · rename_i same
      subst same
      rw [entriesOf_registered hr, get?_contents, hr]
      rfl
    · rfl
  | none =>
    refine ⟨_, _, rfl, ⟨?_, ?_⟩, rfl, ?_, ext_get? fun other => ?_⟩
    · intro other id registered
      rw [Array.size_push]
      rw [get?_insert] at registered
      split at registered
      · cases registered
        exact Nat.lt_succ_self _
      · exact Nat.lt_succ_of_lt (sound.exist registered)
    · intro one two id registered registered'
      rw [get?_insert] at registered registered'
      split at registered <;> split at registered'
      · rename_i first second
        rw [← first, second]
      · cases registered
        exact absurd (sound.exist registered') (Nat.lt_irrefl _)
      · cases registered'
        exact absurd (sound.exist registered) (Nat.lt_irrefl _)
      · exact sound.apart registered registered'
    · rw [get?_insert, if_pos rfl]
    · rw [get?_contents, get?_insert, get?_insert]
      split
      · rename_i same
        subst same
        rw [entriesOf, get?_contents, hr]
        exact congrArg (fun p : Partition => some p.entries) (partition_push_last _)
      · rw [get?_contents]
        cases ho : e.registered.get? other with
        | none => rfl
        | some id =>
          exact congrArg (fun p : Partition => some p.entries)
            (partition_push _ (sound.exist ho))

/-- Opening leaves the handles that were given on the names that they have. -/
theorem registered_openPartition_iff {other : String} (h : id < e.partitions.size) :
    (e.openPartition name).2.registered.get? other = some id ↔
      e.registered.get? other = some id := by
  rcases e.after_openPartition name with same | ⟨absent, next⟩
  · rw [same]
  rw [next, get?_insert]
  split
  · rename_i same
    rw [← same, absent, Option.some_inj]
    exact iff_of_false (Nat.ne_of_gt h) (Option.some_ne_none id).symm
  · rfl

/-- Opening gives up no name. -/
theorem registered_openPartition (e : Engine) (name : String) {other : String}
    (h : (e.registered.get? other).isSome = true) :
    ((e.openPartition name).2.registered.get? other).isSome = true := by
  rcases e.after_openPartition name with same | ⟨-, next⟩
  · rwa [same]
  rw [next, get?_insert]
  split
  · rfl
  · exact h

theorem registered_of_openPartition (h : (e.openPartition name).1 = .ok id) :
    ((e.openPartition name).2.registered.get? name).isSome = true := by
  rw [openPartition] at h ⊢
  split at h
  · cases h
  · rename_i opened
    rw [if_neg opened]
    split
    · rename_i known
      rw [known]
      rfl
    · rw [get?_insert, if_pos rfl]
      rfl

/-- Opening registers no other name. -/
theorem registered_openPartition_of_ne (e : Engine) {name other : String} (h : name ≠ other) :
    (e.openPartition name).2.registered.get? other = e.registered.get? other := by
  rcases e.after_openPartition name with same | ⟨-, next⟩
  · rw [same]
  · rw [next, get?_insert, if_neg h]

theorem openPartition_of_error {fault : StorageError}
    (h : (e.openPartition name).1 = .error fault) : (e.openPartition name).2 = e := by
  rw [openPartition] at h ⊢
  split at h
  · rename_i closed
    rw [if_pos closed]
  · split at h <;> cases h

/-- A name that is registered is not registered again. -/
theorem openPartition_of_registered (h : (e.registered.get? name).isSome = true) :
    (e.openPartition name).2 = e := by
  obtain ⟨id, known⟩ := Option.isSome_iff_exists.1 h
  rw [openPartition, known]
  split <;> rfl

theorem sound_openPartition (sound : e.Sound) (name : String) : (e.openPartition name).2.Sound := by
  cases h : e.isClosed with
  | true =>
    rw [openPartition_closed h]
    exact sound
  | false =>
    obtain ⟨_, _, opened, sound', _⟩ := openPartition_open sound h name
    rw [opened]
    exact sound'

/-- Removing registers nothing. -/
theorem registered_before_removePartition {other : String}
    (h : (e.removePartition name).2.registered.get? other = some id) :
    e.registered.get? other = some id := by
  rcases e.after_removePartition name with same | ⟨_, given⟩
  · rwa [same] at h
  rw [given, get?_erase] at h
  split at h
  · cases h
  · exact h

theorem sound_removePartition (sound : e.Sound) (name : String) :
    (e.removePartition name).2.Sound where
  exist registered := by
    rw [size_removePartition]
    exact sound.exist (registered_before_removePartition registered)
  apart registered registered' := sound.apart (registered_before_removePartition registered)
    (registered_before_removePartition registered')

/-- Removing gives one name up, whether it is registered or not. -/
theorem removePartition_open (h : e.isClosed = false) (name : String) :
    ∃ e', e.removePartition name = (.ok (), e') ∧ e'.isClosed = false ∧
      ∀ other, e'.registered.get? other =
        if name = other then none else e.registered.get? other := by
  rw [removePartition, h, if_neg Bool.false_ne_true]
  cases hr : e.registered.get? name with
  | some id => exact ⟨_, rfl, rfl, get?_erase _ _⟩
  | none =>
    refine ⟨e, rfl, h, fun other => ?_⟩
    split
    · rename_i same
      rw [← same, hr]
    · rfl

theorem partition_removePartition (h : e.isClosed = false) (name : String) (other : PartitionId) :
    (e.removePartition name).2.partition other =
      if e.registered.get? name = some other then (e.partition other).clear
      else e.partition other := by
  rw [removePartition, h, if_neg Bool.false_ne_true]
  cases hr : e.registered.get? name with
  | none => rfl
  | some id =>
    show (e.partitions.modify id Partition.clear).getD other default = _
    simp only [Array.getD_eq_getD_getElem?, Array.getElem?_modify, partition, Option.some_inj]
    split
    · cases e.partitions[other]? <;> rfl
    · rfl

/-- Removing gives up the entries of one name. -/
theorem contents_removePartition (sound : e.Sound) (h : e.isClosed = false) (name : String) :
    (e.removePartition name).2.contents = e.contents.erase name := by
  obtain ⟨e', removed, -, registered⟩ := removePartition_open h name
  refine ext_get? fun other => ?_
  rw [get?_erase, get?_contents, get?_contents, removed, registered]
  split
  · rfl
  · rename_i apart
    refine Option.map_congr fun id known => ?_
    have kept := partition_removePartition h name id
    rw [removed, if_neg fun both => apart (sound.apart both known)] at kept
    rw [kept]

theorem registered_removePartition (e : Engine) {name other : String} (h : name ≠ other) :
    (e.removePartition name).2.registered.get? other = e.registered.get? other := by
  rcases e.after_removePartition name with same | ⟨id, given⟩
  · rw [same]
  · rw [given, get?_erase, if_neg h]

theorem registered_of_removePartition (h : (e.removePartition name).1 = .ok ()) :
    (e.removePartition name).2.registered.get? name = none := by
  cases closed : e.isClosed with
  | true =>
    rw [removePartition, if_pos closed] at h
    cases h
  | false =>
    obtain ⟨e', removed, -, registered⟩ := removePartition_open closed name
    rw [removed, registered, if_pos rfl]

theorem removePartition_of_error {fault : StorageError}
    (h : (e.removePartition name).1 = .error fault) : (e.removePartition name).2 = e := by
  rw [removePartition] at h ⊢
  split at h
  · rename_i closed
    rw [if_pos closed]
  · split at h <;> cases h

theorem sound_close (sound : e.Sound) : e.close.Sound := ⟨sound.exist, sound.apart⟩

/-! ## Calls -/

theorem sound_call (sound : e.Sound) (id : PartitionId) (c : Call) : (e.call id c).2.Sound := by
  constructor
  · intro name other registered
    show other < (e.partitions.setIfInBounds id _).size
    rw [Array.size_setIfInBounds]
    exact sound.exist registered
  · intro name name' other registered registered'
    exact sound.apart registered registered'

/-- A call on the partition of a name changes the entries of this name only. -/
theorem contents_call (sound : e.Sound) (h : e.registered.get? name = some id) (c : Call) :
    (e.call id c).2.contents = e.contents.insert name ((e.partition id).call c).2.entries := by
  refine ext_get? fun other => ?_
  rw [get?_insert, get?_contents, get?_contents]
  show (e.registered.get? other).map _ = _
  cases ho : e.registered.get? other with
  | none =>
    rw [if_neg]
    · rfl
    · rintro rfl
      rw [h] at ho
      cases ho
  | some id' =>
    simp only [Option.map_some]
    rw [partition_call _ _ _ _ (sound.exist ho)]
    by_cases same : name = other
    · subst same
      rw [h] at ho
      cases ho
      rw [if_pos rfl, if_pos rfl]
    · rw [if_neg same, if_neg]
      rintro rfl
      exact same (sound.apart h ho)

/-- A call on a partition that was given up changes the entries of no name. -/
theorem contents_call_of_detached (sound : e.Sound) (h : ∀ name, e.registered.get? name ≠ some id)
    (c : Call) : (e.call id c).2.contents = e.contents := by
  refine ext_get? fun other => ?_
  rw [get?_contents, get?_contents]
  refine Option.map_congr fun id' registered => ?_
  rw [partition_call _ _ _ _ (sound.exist registered), if_neg]
  rintro rfl
  exact h other registered

/-- Putting into the partition of a name changes the entries of this name only. -/
theorem contents_put (sound : e.Sound) (h : e.registered.get? name = some id) (key value : Bytes) :
    (e.call id (.put key value)).2.contents =
      e.contents.insert name ((e.entriesOf name).insert key value) := by
  rw [contents_call sound h, entriesOf_registered h]
  rfl

/-- Reading leaves the engine. -/
theorem call_page (e : Engine) (id : PartitionId) (start : Option Bytes) (count : Nat) :
    e.call id (.page start count) = ((e.partition id).entries.page start count, e) := by
  have same : e.partitions.setIfInBounds id (e.partition id) = e.partitions := by
    refine Array.ext_getElem? fun i => ?_
    rw [Array.getElem?_setIfInBounds]
    split
    · rename_i eq
      subst eq
      split
      · rename_i inside
        rw [partition, Array.getD_eq_getD_getElem?, Array.getElem?_eq_getElem inside]
        rfl
      · rename_i outside
        exact (Array.getElem?_eq_none (Nat.not_lt.1 outside)).symm
    · rfl
  show (_, { e with partitions := e.partitions.setIfInBounds id (e.partition id) }) = _
  rw [same]

end SnapshotStore.Engine
