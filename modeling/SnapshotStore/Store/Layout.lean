import SnapshotStore.Codec.Key
import SnapshotStore.Codec.Value
import SnapshotStore.Store.Access

/-!
Layouts: how typed keys and values lie in a partition. The operations of a layout are single calls
on the partition with keys and values written before and read after.
-/

namespace SnapshotStore

/-- The operations that stores of keys and values have in common. -/
structure KeyedStore (κ ν : Type) where
  /-- Adds or replaces a value. -/
  put : κ → ν → Operation Unit
  get : κ → Operation (Option ν)
  /-- Removes a key; an absent one is no error. -/
  remove : κ → Operation Unit
  contains : κ → Operation Bool
  first : Operation (Option (κ × ν))
  last : Operation (Option (κ × ν))
  /-- The first entries from a key on, at most as many as asked for. -/
  page : Option κ → Nat → Operation (List (κ × ν))

/-- How keys and values are written to a partition. -/
structure Layout (κ ν : Type) where
  keys : KeyCodec κ
  values : ValueCodec ν

namespace Layout

variable {κ ν : Type} (l : Layout κ ν)

/-- Keys and values kept as they are. -/
def raw : Layout Bytes Bytes := ⟨KeyKind.bytesCodec, ValueCodec.raw⟩

/-- Typed keys and values that have a JSON text. -/
def json (keys : KeyKind) (values : ValueKind) : Layout keys.Carrier values.Carrier :=
  ⟨keys.codec, values.json.stored⟩

def texts (keys : KeyKind) : Layout keys.Carrier String := ⟨keys.codec, ValueCodec.text⟩

/-- The entry that bytes stand for. -/
def readEntry (entry : Entry) : Except StoreError (κ × ν) := do
  let key ← l.keys.decode entry.1
  let value ← l.values.decode entry.2
  pure (key, value)

/-- The entry that bytes stand for, if there are any. -/
def readEntry? : Option Entry → Except StoreError (Option (κ × ν))
  | none => .ok none
  | some entry => some <$> l.readEntry entry

/-- The value that bytes stand for, if there are any. -/
def readValue? : Option Bytes → Except StoreError (Option ν)
  | none => .ok none
  | some bytes => some <$> l.values.decode bytes

/-- The entries that bytes stand for, or the first error. -/
def readEntries : List Entry → Except StoreError (List (κ × ν))
  | [] => .ok []
  | entry :: rest => do
    let e ← l.readEntry entry
    let es ← readEntries rest
    pure (e :: es)

def put (key : κ) (value : ν) : Operation Unit :=
  Operation.call (.put (l.keys.encode key) (l.values.encode value))

def get (key : κ) : Operation (Option ν) := do
  let stored ← Operation.call (.get (l.keys.encode key))
  Operation.ofExcept (l.readValue? stored)

def remove (key : κ) : Operation Unit :=
  Operation.call (.remove (l.keys.encode key))

def contains (key : κ) : Operation Bool :=
  Operation.call (.contains (l.keys.encode key))

def first : Operation (Option (κ × ν)) := do
  let entry ← Operation.call .first
  Operation.ofExcept (l.readEntry? entry)

def last : Operation (Option (κ × ν)) := do
  let entry ← Operation.call .last
  Operation.ofExcept (l.readEntry? entry)

def page (start : Option κ) (count : Nat) : Operation (List (κ × ν)) := do
  let entries ← Operation.call (.page (start.map l.keys.encode) count)
  Operation.ofExcept (l.readEntries entries)

/-- A partition as a store of keys and values. -/
def keyed : KeyedStore κ ν :=
  ⟨l.put, l.get, l.remove, l.contains, l.first, l.last, l.page⟩

end Layout

end SnapshotStore
