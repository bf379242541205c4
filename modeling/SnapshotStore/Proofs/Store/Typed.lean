import SnapshotStore.Proofs.Partition
import SnapshotStore.Proofs.RunAlone
import SnapshotStore.Proofs.Store.KeyOrder
import SnapshotStore.Proofs.Trace
import SnapshotStore.Proofs.Unsteady

/-!
Typed stores as finite maps. A partition holds a map if its bytes are read as the keys and values of
the map, in the same order (`Layout.Holds`). Each call of a layout then has its counterpart on the
map, and an entity store answers as its map does (`EntityStore.perform_map`).
-/

namespace SnapshotStore

variable {keys : KeyKind} {κ ν : Type}

/-! ## Calls -/

/-- A call that all stores of keys and values take. -/
inductive KeyedCall (κ ν : Type) where
  | put (key : κ) (value : ν)
  | get (key : κ)
  | remove (key : κ)
  | contains (key : κ)
  | first
  | last
  | page (start : Option κ) (count : Nat)

/-- What stores of keys and values answer. -/
inductive KeyedAnswer (κ ν : Type) where
  | done
  | found (value : Option ν)
  | there (isThere : Bool)
  | entry (entry : Option (κ × ν))
  | entries (entries : List (κ × ν))
  deriving DecidableEq

/-- Makes a call. -/
def KeyedStore.perform (store : KeyedStore κ ν) : KeyedCall κ ν → Operation (KeyedAnswer κ ν)
  | .put key value => do
    store.put key value
    pure .done
  | .get key => do pure (.found (← store.get key))
  | .remove key => do
    store.remove key
    pure .done
  | .contains key => do pure (.there (← store.contains key))
  | .first => do pure (.entry (← store.first))
  | .last => do pure (.entry (← store.last))
  | .page start count => do pure (.entries (← store.page start count))

/-! ## Maps -/

/-- Values by keys, in the order of the bytes of the keys. -/
abbrev StoreMap (keys : KeyKind) (ν : Type) := OrderedMap (StoreKey keys) ν

namespace StoreMap

/-- A binding as an entry of a store. -/
def entry (b : StoreKey keys × ν) : keys.Carrier × ν := (b.1.key, b.2)

/-- The answer to a call, and the map after it. -/
def perform (m : StoreMap keys ν) :
    KeyedCall keys.Carrier ν → KeyedAnswer keys.Carrier ν × StoreMap keys ν
  | .put key value => (.done, m.insert ⟨key⟩ value)
  | .get key => (.found (m.get? ⟨key⟩), m)
  | .remove key => (.done, m.erase ⟨key⟩)
  | .contains key => (.there (m.contains ⟨key⟩), m)
  | .first => (.entry (m.first?.map entry), m)
  | .last => (.entry (m.last?.map entry), m)
  | .page start count => (.entries ((m.page (start.map .mk) count).map entry), m)

end StoreMap

/-! ## Layouts -/

/-- A text is read back from its bytes. -/
theorem ValueCodec.decode_text (text : String) :
    ValueCodec.text.decode (ValueCodec.text.encode text) = .ok text := by
  show (Utf8.decode (Utf8.encode text)).mapError _ = _
  rw [Utf8.decode_encode]
  rfl

namespace Layout

/-- Whether bytes are read as a value. -/
def Means (values : ValueCodec ν) (bytes : Bytes) (value : ν) : Prop :=
  values.decode bytes = .ok value

/-- Whether a partition holds the values of a map under their keys and nothing else. -/
def Holds (values : ValueCodec ν) (p : Partition) (m : StoreMap keys ν) : Prop :=
  OrderedMap.Matches StoreKey.Are (Means values) p.entries m

variable {values : ValueCodec ν} {p : Partition} {m : StoreMap keys ν} {s : Standing Partition}

theorem holds_empty (h : p.entries = .empty) : Holds values p (.empty : StoreMap keys ν) := by
  rw [Holds, h]
  exact OrderedMap.matches_empty

theorem Holds.put (h : Holds values p m) (key : keys.Carrier) {value : ν}
    (back : values.decode (values.encode value) = .ok value) :
    Holds values (p.put (keys.codec.encode key) (values.encode value)) (m.insert ⟨key⟩ value) :=
  OrderedMap.Matches.insert StoreKey.orderFaithful_are h rfl back

theorem Holds.remove (h : Holds values p m) (key : keys.Carrier) :
    Holds values (p.remove (keys.codec.encode key)) (m.erase ⟨key⟩) := by
  rw [Holds, Partition.entries_remove]
  exact OrderedMap.Matches.erase StoreKey.orderFaithful_are h rfl

/-! ### Reading -/

theorem readEntry_of_related {bytes : Entry} {b : StoreKey keys × ν}
    (h : OrderedMap.Related StoreKey.Are (Means values) bytes b) :
    readEntry ⟨keys.codec, values⟩ bytes = .ok (StoreMap.entry b) := by
  rw [readEntry, h.1.decode, show values.decode _ = _ from h.2]
  rfl

theorem readEntry?_of_related {bytes : Option Entry} {b : Option (StoreKey keys × ν)}
    (h : Option.Rel (OrderedMap.Related StoreKey.Are (Means values)) bytes b) :
    readEntry? ⟨keys.codec, values⟩ bytes = .ok (b.map StoreMap.entry) := by
  cases h with
  | none => rfl
  | some h =>
    rw [Layout.readEntry?, readEntry_of_related h]
    rfl

theorem readValue?_of_related {bytes : Option Bytes} {value : Option ν}
    (h : Option.Rel (Means values) bytes value) :
    readValue? ⟨keys.codec, values⟩ bytes = .ok value := by
  cases h with
  | none => rfl
  | some h =>
    rw [readValue?, show values.decode _ = _ from h]
    rfl

theorem readEntries_of_related {bytes : List Entry} {bs : List (StoreKey keys × ν)}
    (h : List.Forall₂ (OrderedMap.Related StoreKey.Are (Means values)) bytes bs) :
    readEntries ⟨keys.codec, values⟩ bytes = .ok (bs.map StoreMap.entry) := by
  induction h with
  | nil => rfl
  | cons hb _ ih =>
    rw [readEntries, readEntry_of_related hb, ih]
    rfl

/-! ### Calls -/

variable (h : Holds values s.base m) (key : keys.Carrier)

include h

theorem Holds.runAlone_get :
    (Layout.get ⟨keys.codec, values⟩ key).runAlone Partition.serve s =
      (.ok (m.get? ⟨key⟩), s) :=
  congrArg (·, s) (readValue?_of_related (h.get? StoreKey.orderFaithful_are rfl))

theorem Holds.runAlone_contains :
    (Layout.contains ⟨keys.codec, values⟩ key).runAlone Partition.serve s =
      (.ok (m.contains ⟨key⟩), s) :=
  congrArg (fun there => (Except.ok there, s)) (h.contains StoreKey.orderFaithful_are rfl)

theorem Holds.runAlone_first :
    (Layout.first ⟨keys.codec, values⟩).runAlone Partition.serve s =
      (.ok (m.first?.map StoreMap.entry), s) :=
  congrArg (·, s) (readEntry?_of_related h.first?)

theorem Holds.runAlone_last :
    (Layout.last ⟨keys.codec, values⟩).runAlone Partition.serve s =
      (.ok (m.last?.map StoreMap.entry), s) :=
  congrArg (·, s) (readEntry?_of_related h.last?)

theorem Holds.runAlone_page (start : Option keys.Carrier) (count : Nat) :
    (Layout.page ⟨keys.codec, values⟩ start count).runAlone Partition.serve s =
      (.ok ((m.page (start.map .mk) count).map StoreMap.entry), s) := by
  refine congrArg (·, s) (readEntries_of_related ?_)
  cases start with
  | none => exact List.forall₂_take count h
  | some start => exact h.page StoreKey.orderFaithful_are rfl count

end Layout

/-! ## Entity stores -/

/-- The entity store of a name, its values written by a codec. -/
def EntityStore.ofValues (keys : KeyKind) (name : String) (values : ValueCodec ν)
    (shards : Shards keys.Carrier) : EntityStore keys.Carrier ν :=
  ⟨name, ⟨keys.codec, values⟩, shards⟩

/-- Whether a value that a call puts is read back as it is. -/
def KeyedCall.ReadsBack (values : ValueCodec ν) (call : KeyedCall κ ν) : Prop :=
  ∀ key value, call = put key value → values.decode (values.encode value) = .ok value

namespace EntityStore

open Layout

variable (name : String) (shards : Shards keys.Carrier) {values : ValueCodec ν}
  {s : Standing Partition} {m : StoreMap keys ν}

@[simp] theorem runAlone_locked {σ α : Type}
    (call : (c : Call) → σ → Except StorageError c.Answer × σ) (store : EntityStore κ ν) (key : κ)
    (body : Operation α) (s : Standing σ) :
    (store.locked key body).runAlone call s = body.runAlone call s :=
  Operation.runAlone_withLock call s _ body

/-- An entity store over a partition that holds a map answers as the map does, and the partition
holds the map after that. -/
theorem perform_map (h : Holds values s.base m) {call : KeyedCall keys.Carrier ν}
    (back : call.ReadsBack values) :
    ∃ base, ((ofValues keys name values shards).keyed.perform call).runAlone Partition.serve s =
        (.ok (m.perform call).1, { s with base }) ∧ Holds values base (m.perform call).2 := by
  have asks : ∀ {α} {op : Operation α} {a : α} (f : α → KeyedAnswer keys.Carrier ν),
      op.runAlone Partition.serve s = (.ok a, s) →
      (op >>= fun a => pure (f a)).runAlone Partition.serve s = (.ok (f a), s) :=
    fun f ran => Operation.runAlone_bind_ok Partition.serve s ran _
  cases call with
  | put key value => exact ⟨_, rfl, h.put key (back key value rfl)⟩
  | get key =>
    exact ⟨s.base, asks .found ((runAlone_locked ..).trans (h.runAlone_get key)), h⟩
  | remove key => exact ⟨_, rfl, h.remove key⟩
  | contains key =>
    exact ⟨s.base, asks .there ((runAlone_locked ..).trans (h.runAlone_contains key)), h⟩
  | first => exact ⟨s.base, asks .entry h.runAlone_first, h⟩
  | last => exact ⟨s.base, asks .entry h.runAlone_last, h⟩
  | page start count => exact ⟨s.base, asks .entries (h.runAlone_page start count), h⟩

end EntityStore

end SnapshotStore
