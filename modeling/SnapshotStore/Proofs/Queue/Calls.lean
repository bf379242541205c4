import SnapshotStore.Proofs.OffsetKey
import SnapshotStore.Proofs.Partition
import SnapshotStore.Proofs.Trace

/-!
The calls that a queue takes, and what a partition holds for it: a key for each offset, and under it
bytes that are read back as the item.
-/

namespace SnapshotStore

/-- A call on a queue of items. -/
inductive QueueCall (ν : Type) where
  | append (item : ν)
  | removeFirst (condition : Int → ν → Bool)
  | removeOffset (offset : Int) (condition : Int → ν → Bool)
  | batch (start : Int) (count : Nat)

/-- What a queue answers. -/
inductive QueueAnswer (ν : Type) where
  | offset (offset : Int)
  | removal (removal : Removal (Int × ν))
  | items (items : List (Int × ν))
  deriving DecidableEq

namespace QueueAnswer

variable {ν : Type}

/-- The item that a removal asked its condition about. -/
def seen : QueueAnswer ν → Option (Int × ν)
  | removal r => r.seen
  | offset _ | items _ => none

/-- The offset that an append gave. -/
def offset? : QueueAnswer ν → Option Int
  | offset o => some o
  | removal _ | items _ => none

end QueueAnswer

namespace QueueCall

variable {ν : Type}

/-- The number of items that calls append. -/
def appends : List (QueueCall ν) → Nat
  | [] => 0
  | append _ :: calls => appends calls + 1
  | _ :: calls => appends calls

/-- Whether each item that calls append is read back as it is. -/
def ReadBack (values : ValueCodec ν) (calls : List (QueueCall ν)) : Prop :=
  ∀ item, append item ∈ calls → values.decode (values.encode item) = .ok item

/-- Whether a queue that ends at an offset can take a call: an item that it appends must get an offset
and be read back as it is. -/
def Fits (values : ValueCodec ν) (tail : Int) (call : QueueCall ν) : Prop :=
  ∀ item, call = append item →
    tail + 1 < Queue.offsetLimit ∧ values.decode (values.encode item) = .ok item

/-- Whether the condition of a removal holds of an item. -/
def admits (entry : Int × ν) : QueueCall ν → Bool
  | removeFirst condition | removeOffset _ condition => condition entry.1 entry.2
  | append _ | batch _ _ => false

/-- The call with a condition that holds of no item. -/
def refusing : QueueCall ν → QueueCall ν
  | append item => append item
  | removeFirst _ => removeFirst fun _ _ => false
  | removeOffset offset _ => removeOffset offset fun _ _ => false
  | batch start count => batch start count

theorem ReadBack.tail {values : ValueCodec ν} {call : QueueCall ν} {calls : List (QueueCall ν)}
    (h : ReadBack values (call :: calls)) : ReadBack values calls :=
  fun item hi => h item (List.mem_cons_of_mem _ hi)

end QueueCall

namespace Queue

variable {ν : Type}

/-- The queue of a name, its items written by a codec. -/
def ofValues (name : String) (values : ValueCodec ν) (shards : Shards Int64) : Queue ν :=
  ⟨⟨name, ⟨KeyKind.signedCodec, values⟩, shards⟩⟩

/-- Makes a call. -/
def perform (q : Queue ν) : QueueCall ν → Operation (QueueAnswer ν)
  | .append item => do pure (.offset (← q.append item))
  | .removeFirst condition => do pure (.removal (← q.removeFirst condition))
  | .removeOffset offset condition => do pure (.removal (← q.removeOffset offset condition))
  | .batch start count => do pure (.items (← q.batch start count))

/-- Whether bytes are read as an item. -/
def IsItemOf (values : ValueCodec ν) (bytes : Bytes) (item : ν) : Prop :=
  values.decode bytes = .ok item

/-- Whether a partition holds items at their offsets and nothing else. -/
def Holds (values : ValueCodec ν) (p : Partition) (items : OrderedMap Int ν) : Prop :=
  OrderedMap.Matches IsKeyOf (IsItemOf values) p.entries items

variable {values : ValueCodec ν} {p : Partition} {items : OrderedMap Int ν} {offset : Int}

theorem holds_empty (h : p.entries = .empty) : Holds values p (.empty : OrderedMap Int ν) := by
  rw [Holds, h]
  exact OrderedMap.matches_empty

theorem Holds.put (h : Holds values p items) (h0 : 0 ≤ offset) (room : offset < offsetLimit)
    {bytes : Bytes} {item : ν} (back : values.decode bytes = .ok item) :
    Holds values (p.put (KeyKind.signedCodec.encode (key offset)) bytes) (items.insert offset item) :=
  h.insert orderFaithful_isKeyOf ⟨h0, room, rfl⟩ back

/-- There is nothing under the key of an offset if and only if there is no item at the offset. -/
theorem Holds.absent_iff (h : Holds values p items) (h0 : 0 ≤ offset) (room : offset < offsetLimit) :
    p.entries.get? (KeyKind.signedCodec.encode (key offset)) = none ↔ items.get? offset = none := by
  have found := h.get? orderFaithful_isKeyOf ⟨h0, room, rfl⟩
  generalize p.entries.get? _ = bytes at found ⊢
  generalize items.get? offset = item at found ⊢
  cases found with
  | none => exact iff_of_true rfl rfl
  | some _ => exact iff_of_false (Option.some_ne_none _) (Option.some_ne_none _)

end Queue

end SnapshotStore
