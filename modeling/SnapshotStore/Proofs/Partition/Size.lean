import SnapshotStore.Proofs.Partition.Contents

/-!
How a partition counts its bytes. No step takes more off the count than there is in it, and the count
is that of the live entries, as long as the partition was not filled with a key that is given more
than once: the bytes of such a key count each time, until the partition is cleared. Main statement:
`Partition.size_history`.
-/

namespace SnapshotStore

namespace OrderedMap

universe u v

variable {κ : Type u} {ν : Type v} [LT κ] [LE κ] [Std.LawfulOrderLT κ] [DecidableEq κ]
  (w : κ → ν → Nat)

/-- What all bindings weigh together. -/
def weight (m : OrderedMap κ ν) : Nat := (m.toList.map fun b => w b.1 b.2).sum

/-- What the binding of a key weighs, if there is one. -/
def weightAt (m : OrderedMap κ ν) (k : κ) : Nat := (m.get? k).elim 0 (w k)

theorem weight_erase (m : OrderedMap κ ν) (k : κ) :
    (m.erase k).weight w + m.weightAt w k = m.weight w := by
  have sorted := m.sorted
  show ((m.toList.filter fun b => b.1 ≠ k).map _).sum + (lookup k m.toList).elim 0 (w k) =
    (m.toList.map _).sum
  generalize m.toList = l at sorted
  induction l with
  | nil => rfl
  | cons b l ih =>
    obtain ⟨least, sorted⟩ := List.pairwise_cons.1 sorted
    by_cases same : b.1 = k
    · -- The keys behind this one are greater, so nothing else goes.
      have rest : l.filter (fun c => c.1 ≠ k) = l := by
        refine List.filter_eq_self.2 fun c mem => decide_eq_true fun eq => ?_
        exact Std.lt_irrefl ((same.trans eq.symm) ▸ least c mem)
      rw [List.filter_cons_of_neg (by simpa using same), rest, lookup, if_pos same, List.map_cons,
        List.sum_cons, Option.elim_some, ← same]
      exact Nat.add_comm _ _
    · rw [List.filter_cons_of_pos (by simpa using same), lookup, if_neg same, List.map_cons,
        List.sum_cons, List.map_cons, List.sum_cons, Nat.add_assoc, ih sorted]

theorem weight_insert [DecidableLT κ] [Std.IsLinearOrder κ] (m : OrderedMap κ ν) (k : κ) (v : ν) :
    (m.insert k v).weight w + m.weightAt w k = m.weight w + w k v := by
  have same : (m.insert k v).erase k = m.erase k := ext_get? fun k' => by
    rw [get?_erase, get?_erase, get?_insert]
    split <;> rfl
  have new : (m.insert k v).weightAt w k = w k v := by
    rw [weightAt, get?_insert, if_pos rfl]
    rfl
  have before := m.weight_erase w k
  have after := (m.insert k v).weight_erase w k
  rw [same, new] at after
  omega

end OrderedMap

namespace Partition

/-! ## Counting -/

/-- The bytes of a key and its value. -/
def entryBytes (key value : Bytes) : Nat := key.length + value.length

/-- The bytes of the keys and values that are there. -/
def liveBytes (p : Partition) : Nat := p.entries.weight entryBytes

/-- The bytes that a step takes off the count, before it adds any. -/
def takenOff (p : Partition) : PartitionStep → Nat
  | .call (.put key _) => (p.entries.get? key).elim 0 List.length
  | .call (.remove key) => p.entries.weightAt entryBytes key
  | .call (.get _) | .call (.contains _) | .call .first | .call .last | .call (.page _ _) => 0
  | .clear => 0

/-- The bytes of keys that are given again further on, each time they are. -/
def repeatedBytes : List Entry → Nat
  | [] => 0
  | entry :: rest =>
    (if entry.1 ∈ rest.map Prod.fst then entry.1.length else 0) + repeatedBytes rest

variable {p : Partition} {extra : Nat}

/-! ## Steps -/

/-- The bytes of a value are among those that are there. -/
theorem replaced_le_liveBytes (p : Partition) (key : Bytes) :
    (p.entries.get? key).elim 0 List.length ≤ p.liveBytes := by
  have weight := p.entries.weight_erase entryBytes key
  rw [OrderedMap.weightAt] at weight
  rw [liveBytes]
  cases there : p.entries.get? key with
  | none => exact Nat.zero_le _
  | some old =>
    simp only [there, Option.elim_some, entryBytes] at weight ⊢
    omega

/-- No step takes off more bytes than are there. -/
theorem takenOff_le_liveBytes (p : Partition) (s : PartitionStep) : p.takenOff s ≤ p.liveBytes := by
  cases s with
  | clear => exact Nat.zero_le _
  | call c =>
    cases c with
    | put key value => exact p.replaced_le_liveBytes key
    | remove key => exact Nat.le.intro ((Nat.add_comm _ _).trans (p.entries.weight_erase _ key))
    | get | contains | first | last | page => exact Nat.zero_le _

theorem size_put (h : p.size = p.liveBytes + extra) (key value : Bytes) :
    (p.put key value).size = (p.put key value).liveBytes + extra := by
  have weight := p.entries.weight_insert entryBytes key value
  have replaced := p.replaced_le_liveBytes key
  rw [OrderedMap.weightAt] at weight
  rw [liveBytes] at h replaced
  rw [liveBytes, entries_put]
  cases there : p.entries.get? key with
  | none =>
    simp only [there, Option.elim_none, entryBytes] at weight
    simp only [put, there]
    omega
  | some old =>
    simp only [there, Option.elim_some, entryBytes] at weight replaced
    simp only [put, there]
    omega

theorem size_remove (h : p.size = p.liveBytes + extra) (key : Bytes) :
    (p.remove key).size = (p.remove key).liveBytes + extra := by
  have weight := p.entries.weight_erase entryBytes key
  rw [OrderedMap.weightAt] at weight
  rw [liveBytes] at h
  rw [liveBytes, entries_remove]
  cases there : p.entries.get? key with
  | none =>
    simp only [there, Option.elim_none] at weight
    simp only [remove, there]
    omega
  | some old =>
    simp only [there, Option.elim_some, entryBytes] at weight
    simp only [remove, there]
    omega

/-- The count is too high by as much after a step as before it, unless this clears the partition. -/
theorem size_step (h : p.size = p.liveBytes + extra) (s : PartitionStep) :
    (p.step s).size = (p.step s).liveBytes + if s = .clear then 0 else extra := by
  cases s with
  | clear => rfl
  | call c =>
    rw [if_neg nofun]
    cases c with
    | put key value => exact size_put h key value
    | remove key => exact size_remove h key
    | get | contains | first | last | page => exact h

theorem size_steps (h : p.size = p.liveBytes + extra) (steps : List PartitionStep) :
    (steps.foldl step p).size =
      (steps.foldl step p).liveBytes + if .clear ∈ steps then 0 else extra := by
  induction steps generalizing p extra with
  | nil => exact h
  | cons s steps ih =>
    rw [List.foldl_cons, ih (size_step h s)]
    by_cases clear : s = .clear
    · simp [clear]
    · simp [clear, Ne.symm clear]

/-! ## Filling -/

theorem ofEntries_concat (name : String) (entries : List Entry) (entry : Entry) :
    ofEntries name (entries ++ [entry]) = (ofEntries name entries).load entry :=
  List.foldl_concat ..

/-- A key that is given again counts again. -/
theorem size_load (h : p.size = p.liveBytes + extra) (entry : Entry) :
    (p.load entry).size = (p.load entry).liveBytes +
      (extra + if p.entries.get? entry.1 ≠ none then entry.1.length else 0) := by
  have weight := p.entries.weight_insert entryBytes entry.1 entry.2
  have replaced := p.replaced_le_liveBytes entry.1
  rw [OrderedMap.weightAt] at weight
  rw [liveBytes] at h replaced
  show _ = (p.entries.insert entry.1 entry.2).weight entryBytes + _
  cases there : p.entries.get? entry.1 with
  | none =>
    simp only [there, Option.elim_none, entryBytes] at weight
    simp only [load, there, ne_eq, not_true_eq_false, if_false]
    omega
  | some old =>
    simp only [there, Option.elim_some, entryBytes] at weight replaced
    simp only [load, there, ne_eq, reduceCtorEq, not_false_eq_true, if_true]
    omega

theorem get?_ofEntries_ne_none_iff {name : String} {entries : List Entry} {key : Bytes} :
    (ofEntries name entries).entries.get? key ≠ none ↔ key ∈ entries.map Prod.fst := by
  induction entries using List.reverseRecOn with
  | nil => simp [ofEntries, empty]
  | append_singleton entries entry ih =>
    rw [ofEntries_concat]
    show ((ofEntries name entries).entries.insert entry.1 entry.2).get? key ≠ none ↔ _
    rw [OrderedMap.get?_insert, List.map_append, List.mem_append, ← ih]
    by_cases same : entry.1 = key
    · simp [same]
    · simp [same, Ne.symm same]

theorem repeatedBytes_concat (entries : List Entry) (entry : Entry) :
    repeatedBytes (entries ++ [entry]) =
      repeatedBytes entries + if entry.1 ∈ entries.map Prod.fst then entry.1.length else 0 := by
  induction entries with
  | nil => simp [repeatedBytes]
  | cons first entries ih =>
    rw [List.cons_append, repeatedBytes, repeatedBytes, ih]
    simp only [List.map_append, List.map_cons, List.map_nil, List.mem_append, List.mem_cons,
      List.not_mem_nil, or_false]
    by_cases same : entry.1 = first.1
    · simp only [same, true_or, or_true, if_true]
      omega
    · simp only [same, Ne.symm same, false_or, or_false]
      omega

/-- What is counted of the entries that a partition is filled with. -/
theorem size_ofEntries (name : String) (entries : List Entry) :
    (ofEntries name entries).size = (ofEntries name entries).liveBytes + repeatedBytes entries := by
  -- Whether a key counts again depends on the entries before it, so the last entry is taken off.
  induction entries using List.reverseRecOn with
  | nil => rfl
  | append_singleton entries entry ih =>
    rw [ofEntries_concat, size_load ih, repeatedBytes_concat]
    exact congrArg (fun n => _ + (_ + n)) (if_congr get?_ofEntries_ne_none_iff rfl rfl)

/-! ## Counts -/

/-- The count of a partition that was filled with any entries, none for a new one, and changed in any
way since. It is that of the live entries and, until the partition is cleared, of the keys that were
given more than once when it was filled. Neither the next step nor the next entry to be filled in
takes off more than was counted. -/
theorem size_history (name : String) (entries : List Entry) (steps : List PartitionStep) :
    let start := ofEntries name entries
    let p := steps.foldl step start
    p.size = p.liveBytes + (if .clear ∈ steps then 0 else repeatedBytes entries) ∧
      (∀ s, p.takenOff s ≤ p.size) ∧
      ∀ entry : Entry, (start.entries.get? entry.1).elim 0 List.length ≤
        start.size + entryBytes entry.1 entry.2 := by
  intro start p
  have counted := size_steps (size_ofEntries name entries) steps
  refine ⟨counted, fun s => ?_, fun entry => ?_⟩
  · exact (p.takenOff_le_liveBytes s).trans (counted ▸ Nat.le_add_right _ _)
  · have replaced := start.replaced_le_liveBytes entry.1
    have filled : start.size = start.liveBytes + _ := size_ofEntries name entries
    omega

/-- A key that is given twice counts twice. -/
theorem repeated_key_counts_twice :
    let p := ofEntries "p" [([97], [49]), ([97], [50])]
    p.size = 3 ∧ p.liveBytes = 2 := by
  decide

end Partition

end SnapshotStore
