import Mathlib.Data.Set.Card
import SnapshotStore.Proofs.Partition

/-!
Partitions against plain finite maps. A map here is a function that gives a key its value or none.
What can be read from a partition is said in terms of the map and of the order of the keys alone
(`Partition.Shows`). Main statement: a partition that was filled with any entries shows, whatever is
done to it, the values that were given last and neither removed nor cleared since
(`Partition.shows_history`).
-/

namespace SnapshotStore

/-- What is done to a partition. -/
inductive PartitionStep where
  | call (c : Call)
  | clear
  deriving DecidableEq

/-! ## Maps -/

/-- What keys have for values. -/
abbrev ByteMap := Bytes → Option Bytes

namespace ByteMap

/-- The map after a step. Reading changes nothing. -/
def step (f : ByteMap) : PartitionStep → ByteMap
  | .call (.put key value) => Function.update f key (some value)
  | .call (.remove key) => Function.update f key none
  | .call (.get _) | .call (.contains _) | .call .first | .call .last | .call (.page _ _) => f
  | .clear => fun _ => none

/-- The map of some entries, put into it one after another. -/
def ofEntries (entries : List Entry) : ByteMap :=
  entries.foldl (fun f entry => f.step (.call (.put entry.1 entry.2))) fun _ => none

end ByteMap

namespace OrderedMap

universe u v

variable {κ : Type u} {ν : Type v} [LT κ] [LE κ] [Std.LawfulOrderLT κ] [DecidableEq κ]

/-- A map has as many bindings as there are keys with a value. -/
theorem size_eq_ncard (m : OrderedMap κ ν) : m.size = {k | m.get? k ≠ none}.ncard := by
  have keys : {k | m.get? k ≠ none} = (m.keys.toFinset : Set κ) := by
    ext k
    rw [List.coe_toFinset, Set.mem_ofPred_eq, Set.mem_ofPred_eq, mem_keys_iff]
  rw [keys, Set.ncard_coe_finset, List.toFinset_card_of_nodup m.nodup_keys, OrderedMap.keys,
    List.length_map, size]

end OrderedMap

namespace Partition

/-! ## What a partition shows -/

/-- What the keys of a partition have for values. -/
def contents (p : Partition) : ByteMap := fun key => p.entries.get? key

/-- The partition after a step. -/
def step (p : Partition) : PartitionStep → Partition
  | .call c => (p.call c).2
  | .clear => p.clear

/-- Whether all that can be read from a partition is what a map says. -/
structure Shows (p : Partition) (f : ByteMap) : Prop where
  /-- The entries are listed in strictly ascending order of the bytes of their keys. -/
  ascending : p.entries.toList.Pairwise fun a b => a.1 < b.1
  mem_iff : ∀ key value, (key, value) ∈ p.entries.toList ↔ f key = some value
  size : p.entries.size = {key | f key ≠ none}.ncard
  isEmpty : p.entries.isEmpty = true ↔ ∀ key, f key = none
  get : ∀ key, (p.call (.get key)).1 = f key
  contains : ∀ key, (p.call (.contains key)).1 = true ↔ f key ≠ none
  first : ∀ key value, (p.call .first).1 = some (key, value) ↔
    f key = some value ∧ ∀ other, f other ≠ none → key ≤ other
  last : ∀ key value, (p.call .last).1 = some (key, value) ↔
    f key = some value ∧ ∀ other, f other ≠ none → other ≤ key
  /-- A page has the first of the entries from its start on, or the first of all entries. -/
  page : ∀ start count, (p.call (.page start count)).1 =
    (p.entries.toList.filter fun entry => ∀ s ∈ start, s ≤ entry.1).take count

theorem shows_contents (p : Partition) : p.Shows p.contents where
  ascending := p.entries.sorted
  mem_iff _ _ := OrderedMap.get?_eq_some_iff.symm
  size := p.entries.size_eq_ncard
  isEmpty := OrderedMap.isEmpty_iff
  get _ := rfl
  contains _ := Option.isSome_iff_ne_none
  first _ _ := OrderedMap.first?_eq_some_iff
  last _ _ := OrderedMap.last?_eq_some_iff
  page start count := by
    show p.entries.page start count = _
    rw [OrderedMap.page]
    cases start with
    | none => simp [OrderedMap.dropBelow]
    | some s => simp [OrderedMap.dropBelow_some]

/-! ## What becomes of it -/

theorem contents_put (p : Partition) (key value : Bytes) :
    (p.put key value).contents = Function.update p.contents key (some value) := by
  funext other
  rw [contents, entries_put, OrderedMap.get?_insert, Function.update_apply]
  exact ite_congr (propext eq_comm) (fun _ => rfl) fun _ => rfl

theorem contents_remove (p : Partition) (key : Bytes) :
    (p.remove key).contents = Function.update p.contents key none := by
  funext other
  rw [contents, entries_remove, OrderedMap.get?_erase, Function.update_apply]
  exact ite_congr (propext eq_comm) (fun _ => rfl) fun _ => rfl

/-- Each step changes the contents as it changes a map. -/
theorem contents_step (p : Partition) (s : PartitionStep) :
    (p.step s).contents = p.contents.step s := by
  cases s with
  | clear => rfl
  | call c =>
    cases c with
    | put key value => exact p.contents_put key value
    | remove key => exact p.contents_remove key
    | get | contains | first | last | page => rfl

/-- Filling puts one entry after another. -/
theorem contents_ofEntries (name : String) (entries : List Entry) :
    (ofEntries name entries).contents = .ofEntries entries := by
  have load : ∀ (p : Partition) (entry : Entry),
      p.contents.step (.call (.put entry.1 entry.2)) = (p.load entry).contents :=
    fun p entry => (p.contents_put entry.1 entry.2).symm
  exact (List.foldl_hom contents load).symm

/-- A partition is an ordered map. Whatever entries it was filled with, none for a new one, and
whatever was done to it since, it shows the map of the values that were given last and neither
removed nor cleared since. -/
theorem shows_history (name : String) (entries : List Entry) (steps : List PartitionStep) :
    (steps.foldl step (ofEntries name entries)).Shows
      (steps.foldl ByteMap.step (.ofEntries entries)) := by
  rw [← contents_ofEntries name, List.foldl_hom contents fun p s => (p.contents_step s).symm]
  exact shows_contents _

end Partition

end SnapshotStore
