import SnapshotStore.Proofs.Store.Typed

/-!
Calls of entity stores on one key, as operations of maps: each reads the value under its key and sets
it (`CellCall.apply`). A call that runs alone answers so (`EntityStore.alone_serve`).
-/

namespace SnapshotStore

variable {keys : KeyKind} {κ ν α β : Type}

/-! ## Calls -/

/-- What a call does with its key. -/
inductive CellCall (ν : Type) where
  | put (value : ν)
  | get
  | remove
  | contains
  | removeIf (condition : ν → Bool)
  | update (change : ν → ν)
  | putOrUpdate (value : ν) (change : ν → ν)
  | findOrPut (value : ν)

structure EntityCall (κ ν : Type) where
  key : κ
  call : CellCall ν

inductive CellAnswer (ν : Type) where
  | done
  | found (value : Option ν)
  | there (isThere : Bool)
  | removal (removal : Removal ν)
  | value (value : ν)
  deriving DecidableEq

namespace EntityStore

/-- Makes a call. -/
def perform (s : EntityStore κ ν) (c : EntityCall κ ν) : Operation (CellAnswer ν) :=
  match c.call with
  | .put value => (fun _ => .done) <$> s.put c.key value
  | .get => .found <$> s.get c.key
  | .remove => (fun _ => .done) <$> s.remove c.key
  | .contains => .there <$> s.contains c.key
  | .removeIf condition => .removal <$> s.removeIf c.key condition
  | .update change => .value <$> s.update c.key change
  | .putOrUpdate value change => .value <$> s.putOrUpdate c.key value change
  | .findOrPut value => .value <$> s.findOrPut c.key value

/-- The answer to a call that runs alone, and what there is after it. -/
def alone (s : EntityStore κ ν) (c : EntityCall κ ν) (standing : Standing Partition) :
    Except StoreError (CellAnswer ν) × Standing Partition :=
  (s.perform c).runAlone Partition.serve standing

end EntityStore

/-! ## Maps -/

namespace CellCall

/-- The answer to a call on a key that has a value or none, and what it has then. The call may require
one that is not there. -/
def apply (absent : StoreError) :
    CellCall ν → Option ν → Except StoreError (CellAnswer ν) × Option ν
  | put value, _ => (.ok .done, some value)
  | get, cell => (.ok (.found cell), cell)
  | remove, _ => (.ok .done, none)
  | contains, cell => (.ok (.there cell.isSome), cell)
  | removeIf _, none => (.ok (.removal ⟨none, false⟩), none)
  | removeIf condition, some value =>
    if condition value then (.ok (.removal ⟨some value, true⟩), none)
    else (.ok (.removal ⟨some value, false⟩), some value)
  | update _, none => (.error absent, none)
  | update change, some value => (.ok (.value (change value)), some (change value))
  | putOrUpdate value _, none => (.ok (.value value), some value)
  | putOrUpdate _ change, some value => (.ok (.value (change value)), some (change value))
  | findOrPut value, none => (.ok (.value value), some value)
  | findOrPut _, some value => (.ok (.value value), some value)

/-- Whether the values that a call puts are among some values, if what it changes is. -/
def Within (P : ν → Prop) : CellCall ν → Prop
  | put value | findOrPut value => P value
  | update change => ∀ value, P value → P (change value)
  | putOrUpdate value change => P value ∧ ∀ value, P value → P (change value)
  | get | remove | contains | removeIf _ => True

theorem Within.apply {P : ν → Prop} {call : CellCall ν} (h : call.Within P) (absent : StoreError)
    {cell : Option ν} (within : ∀ value ∈ cell, P value) :
    ∀ value ∈ (call.apply absent cell).2, P value := by
  have new : ∀ {value}, P value → ∀ value' ∈ some value, P value' := by
    rintro value h _ ⟨⟩
    exact h
  cases call with
  | put value => exact new h
  | get | contains => exact within
  | remove => exact fun _ => nofun
  | removeIf condition =>
    cases cell with
    | none => exact within
    | some old =>
      rw [CellCall.apply]
      split
      · exact fun _ => nofun
      · exact within
  | update change =>
    cases cell with
    | none => exact within
    | some old => exact new (h old (within old rfl))
  | putOrUpdate value change =>
    cases cell with
    | none => exact new h.1
    | some old => exact new (h.2 old (within old rfl))
  | findOrPut value =>
    cases cell with
    | none => exact new h
    | some old => exact within

end CellCall

namespace StoreMap

/-- Gives a key a value or takes it out. -/
def set (m : StoreMap keys ν) (key : keys.Carrier) : Option ν → StoreMap keys ν
  | some value => m.insert ⟨key⟩ value
  | none => m.erase ⟨key⟩

/-- The answer to a call, and the map after it. -/
def serve (name : String) (c : EntityCall keys.Carrier ν) (m : StoreMap keys ν) :
    Except StoreError (CellAnswer ν) × StoreMap keys ν :=
  let absent := .valueNotFound name (keys.codec.inspect c.key)
  let (answer, cell) := c.call.apply absent (m.get? ⟨c.key⟩)
  (answer, m.set c.key cell)

/-- Whether all values of a map are among some values. -/
def Within (P : ν → Prop) (m : StoreMap keys ν) : Prop :=
  ∀ key, ∀ value ∈ m.get? key, P value

theorem set_get? (m : StoreMap keys ν) (key : keys.Carrier) : m.set key (m.get? ⟨key⟩) = m := by
  cases there : m.get? ⟨key⟩ with
  | none => exact OrderedMap.erase_of_get?_eq_none there
  | some value => exact OrderedMap.insert_of_get? there

theorem get?_set (m : StoreMap keys ν) (key : keys.Carrier) (cell : Option ν) (k : StoreKey keys) :
    (m.set key cell).get? k = if ⟨key⟩ = k then cell else m.get? k := by
  cases cell with
  | none => exact OrderedMap.get?_erase _ _ _
  | some value => exact OrderedMap.get?_insert _ _ _ _

theorem Within.serve {P : ν → Prop} {m : StoreMap keys ν} (h : m.Within P) (name : String)
    {c : EntityCall keys.Carrier ν} (within : c.call.Within P) : (m.serve name c).2.Within P := by
  intro k value there
  rw [StoreMap.serve, get?_set] at there
  split at there
  · exact within.apply _ (h _) value there
  · exact h k value there

end StoreMap

/-! ## Running alone -/

namespace EntityStore

open Layout

variable (name : String) (shards : Shards keys.Carrier) {values : ValueCodec ν}
  {s : Standing Partition} {m : StoreMap keys ν}

theorem runAlone_map (f : α → β) {op : Operation α} {r : Except StoreError α}
    {s' : Standing Partition} (h : op.runAlone Partition.serve s = (r, s')) :
    (f <$> op).runAlone Partition.serve s = (f <$> r, s') := by
  rw [← bind_pure_comp, Operation.runAlone_bind, h]
  cases r <;> rfl

section

variable (h : Holds values s.base m) (key : keys.Carrier)

include h

/-- What reads the value of a key under its lock goes on with that of the map. -/
theorem runAlone_reads {cell : Option ν} (there : m.get? ⟨key⟩ = cell)
    (next : Option ν → Operation α) :
    ((ofValues keys name values shards).locked key
        (Layout.get ⟨keys.codec, values⟩ key >>= next)).runAlone Partition.serve s =
      (next cell).runAlone Partition.serve s := by
  rw [runAlone_locked, Operation.runAlone_bind_ok _ _ (h.runAlone_get key), there]

theorem runAlone_removeIf (condition : ν → Bool) :
    ((ofValues keys name values shards).removeIf key condition).runAlone Partition.serve s =
      match m.get? ⟨key⟩ with
      | none => (.ok ⟨none, false⟩, s)
      | some value =>
        if condition value then
          (.ok ⟨some value, true⟩, { s with base := s.base.remove (keys.codec.encode key) })
        else (.ok ⟨some value, false⟩, s) := by
  cases there : m.get? ⟨key⟩ with
  | none => exact runAlone_reads name shards h key there _
  | some value =>
    refine (runAlone_reads name shards h key there _).trans ?_
    dsimp only
    split <;> rfl

theorem runAlone_update (change : ν → ν) :
    ((ofValues keys name values shards).update key change).runAlone Partition.serve s =
      match m.get? ⟨key⟩ with
      | none => (.error (.valueNotFound name (keys.codec.inspect key)), s)
      | some value =>
        (.ok (change value),
          { s with base := s.base.put (keys.codec.encode key) (values.encode (change value)) }) := by
  cases there : m.get? ⟨key⟩ with
  | none | some value => exact runAlone_reads name shards h key there _

theorem runAlone_putOrUpdate (value : ν) (change : ν → ν) :
    ((ofValues keys name values shards).putOrUpdate key value change).runAlone Partition.serve s =
      let new := match m.get? ⟨key⟩ with
        | none => value
        | some old => change old
      (.ok new, { s with base := s.base.put (keys.codec.encode key) (values.encode new) }) := by
  cases there : m.get? ⟨key⟩ with
  | none | some old => exact runAlone_reads name shards h key there _

theorem runAlone_findOrPut (value : ν) :
    ((ofValues keys name values shards).findOrPut key value).runAlone Partition.serve s =
      match m.get? ⟨key⟩ with
      | none =>
        (.ok value, { s with base := s.base.put (keys.codec.encode key) (values.encode value) })
      | some old => (.ok old, s) := by
  cases there : m.get? ⟨key⟩ with
  | none | some old => exact runAlone_reads name shards h key there _

end

/-- A call that runs alone on a partition that holds a map answers as the map does, and the partition
holds the map after that. -/
theorem alone_serve {P : ν → Prop}
    (back : ∀ value, P value → values.decode (values.encode value) = .ok value)
    (h : Holds values s.base m) (within : m.Within P) {c : EntityCall keys.Carrier ν}
    (puts : c.call.Within P) :
    ∃ base, (ofValues keys name values shards).alone c s = ((m.serve name c).1, { s with base }) ∧
      Holds values base (m.serve name c).2 := by
  obtain ⟨key, call⟩ := c
  have put := fun value among => h.put key (back value among)
  have keeps : ∀ cell, m.get? ⟨key⟩ = cell → Holds values s.base (m.set key cell) := by
    rintro _ rfl
    rwa [m.set_get?]
  have here : ∀ value, m.get? ⟨key⟩ = some value → P value := within ⟨key⟩
  rw [StoreMap.serve]
  cases call with
  | put value => exact ⟨_, rfl, put value puts⟩
  | get =>
    exact ⟨s.base, runAlone_map CellAnswer.found ((runAlone_locked ..).trans (h.runAlone_get key)),
      keeps _ rfl⟩
  | remove => exact ⟨_, rfl, h.remove key⟩
  | contains =>
    exact ⟨s.base,
      runAlone_map CellAnswer.there ((runAlone_locked ..).trans (h.runAlone_contains key)),
      keeps _ rfl⟩
  | removeIf condition =>
    have ran := runAlone_map CellAnswer.removal (runAlone_removeIf name shards h key condition)
    cases there : m.get? ⟨key⟩ with
    | none =>
      rw [there] at ran
      exact ⟨s.base, ran, keeps _ there⟩
    | some old =>
      rw [there] at ran
      dsimp only [CellCall.apply] at ran ⊢
      split at ran
      · rw [if_pos ‹_›]
        exact ⟨_, ran, h.remove key⟩
      · rw [if_neg ‹_›]
        exact ⟨s.base, ran, keeps _ there⟩
  | update change =>
    have ran := runAlone_map CellAnswer.value (runAlone_update name shards h key change)
    cases there : m.get? ⟨key⟩ with
    | none =>
      rw [there] at ran
      exact ⟨s.base, ran, keeps _ there⟩
    | some old =>
      rw [there] at ran
      exact ⟨_, ran, put _ (puts old (here old there))⟩
  | putOrUpdate value change =>
    have ran := runAlone_map CellAnswer.value (runAlone_putOrUpdate name shards h key value change)
    cases there : m.get? ⟨key⟩ with
    | none =>
      rw [there] at ran
      exact ⟨_, ran, put _ puts.1⟩
    | some old =>
      rw [there] at ran
      exact ⟨_, ran, put _ (puts.2 old (here old there))⟩
  | findOrPut value =>
    have ran := runAlone_map CellAnswer.value (runAlone_findOrPut name shards h key value)
    cases there : m.get? ⟨key⟩ with
    | none =>
      rw [there] at ran
      exact ⟨_, ran, put _ puts⟩
    | some old =>
      rw [there] at ran
      exact ⟨s.base, ran, keeps _ there⟩

end EntityStore

end SnapshotStore
