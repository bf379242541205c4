import SnapshotStore.Store.Entity

/-!
Queues: items in the order in which they were appended, each at an offset that no other item gets.
Items lie in an entity store under their offsets, whose bytes are ordered as they are. Beside it the
queue keeps the offset of its front and that of its last item; it is empty when the first is
greater.

Taking an item out of the middle leaves a gap, and taking out the last one leaves the bound where it
is, so that its offset is not given again.

The offsets are 64-bit words, and the bounds are integers here. That makes no difference as long as
the front can stand behind the last item, at an offset below 2 ^ 63.
-/

namespace SnapshotStore

/-- A queue of typed items. -/
structure Queue (ν : Type) where
  items : EntityStore Int64 ν

namespace Queue

variable {ν : Type} (q : Queue ν)

def name : String := q.items.name

def key (offset : Int) : Int64 := Int64.ofInt offset

/-- An entry with its key as an offset. -/
def offsetEntry (entry : Int64 × ν) : Int × ν := (entry.1.toInt, entry.2)

def first : Operation (Option (Int × ν)) := do
  let entry ← q.items.first
  pure (entry.map offsetEntry)

def last : Operation (Option (Int × ν)) := do
  let entry ← q.items.last
  pure (entry.map offsetEntry)

/-- Sets the bounds from the items that are there; without any, the queue begins at a given offset,
which must not be negative. -/
def recover (start : Int) : Operation Unit := do
  if start < 0 then throw (.invalidOperation (.negativeHead start))
  let first ← q.first
  let last ← q.last
  match first, last with
  | some (head, _), some (tail, _) =>
    Operation.ask (.setHead head)
    Operation.ask (.setTail tail)
  | _, _ =>
    Operation.ask (.setHead start)
    Operation.ask (.setTail (start - 1))

def headOffset : Operation Int := Operation.ask .head

def tailOffset : Operation Int := Operation.ask .tail

/-- Whether no item lies between the bounds. -/
def isEmpty : Operation Bool := do
  let head ← headOffset
  let tail ← tailOffset
  pure (decide (tail < head))

/-- Puts an item at the back and gives its offset. The bound moves only once the item is there. -/
def append (item : ν) : Operation Int :=
  Operation.withLock .tail do
    let offset := (← tailOffset) + 1
    q.items.put (key offset) item
    Operation.ask (.setTail offset)
    pure offset

/-- Removes the item at an offset if it is there and satisfies a condition. -/
def removeEntry (offset : Int) (condition : Int → ν → Bool) : Operation (Removal (Int × ν)) := do
  let removal ← q.items.removeIf (key offset) (condition offset)
  pure ⟨removal.seen.map (offset, ·), removal.removed⟩

/-- A removal that found nothing to ask about. -/
def nothing : Removal (Int × ν) := ⟨none, false⟩

/-- Removes the oldest item if it satisfies a condition; the front moves behind it, over any gap. -/
def removeFirst (condition : Int → ν → Bool) : Operation (Removal (Int × ν)) := do
  if ← isEmpty then return nothing
  Operation.withLock .head do
    if ← isEmpty then return nothing
    match ← q.first with
    | none => pure nothing
    | some (offset, _) =>
      if (← tailOffset) < offset then return nothing
      let removal ← q.removeEntry offset condition
      if removal.removed then Operation.ask (.setHead (offset + 1))
      pure removal

/-- Removes the item at an offset if it satisfies a condition. At the front this moves the front; at
the back it excludes appending; elsewhere it leaves a gap. -/
def removeOffset (offset : Int) (condition : Int → ν → Bool) : Operation (Removal (Int × ν)) := do
  if ← isEmpty then return nothing
  if offset < (← headOffset) then return nothing
  if (← tailOffset) < offset then return nothing
  if offset = (← headOffset) then
    Operation.withLock .head do
      if offset ≠ (← headOffset) then return nothing
      let removal ← q.removeEntry offset condition
      if removal.removed then Operation.ask (.setHead (offset + 1))
      pure removal
  else if offset = (← tailOffset) then
    Operation.withLock .tail (q.removeEntry offset condition)
  else q.removeEntry offset condition

/-- The first `count` items from an offset on, or from the front if that is later; gaps are skipped,
and what lies behind the last item does not count. -/
def batch (start : Int) (count : Nat) : Operation (List (Int × ν)) := do
  if count = 0 then throw (.invalidOperation .emptyBatch)
  let head ← headOffset
  let tail ← tailOffset
  if tail < head then return []
  let start := max start head
  if tail < start then return []
  let entries ← q.items.page (some (key start)) count
  pure ((entries.map offsetEntry).takeWhile fun entry => entry.1 ≤ tail)

end Queue

end SnapshotStore
