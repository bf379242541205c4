import Mathlib.Tactic.SplitIfs
import SnapshotStore.Proofs.Bytes
import SnapshotStore.Snapshot.Cbor

/-!
Concise binary snapshots read back. A head and an item are each read from what was written, whatever
follows and with fuel to spare. Main statement: a snapshot of less than 2^64 entries, with keys and
values of less than 2^64 bytes, is read as the entries that were written (`read_write`).
-/

namespace SnapshotStore.Cbor

/-! ## Heads -/

/-- The first byte of a head. -/
theorem toNat_first {major low : Nat} (hm : major < 8) (hl : low < 32) :
    (UInt8.ofNat (major * 32 + low)).toNat / 32 = major ∧
      (UInt8.ofNat (major * 32 + low)).toNat % 32 = low := by
  rw [UInt8.toNat_ofNat']
  omega

theorem splitAt?_bigEndian (width n : Nat) (rest : Bytes) :
    Bytes.splitAt? width (Bytes.bigEndian width n ++ rest) = some (Bytes.bigEndian width n, rest) := by
  have := Bytes.splitAt?_append (Bytes.bigEndian width n) rest
  rwa [Bytes.length_bigEndian] at this

/-- A head whose number stands in the bytes after it. -/
theorem readHead_wide {major minor width n : Nat} (hm : major < 8)
    (hw : (minor, width) ∈ [(24, 1), (25, 2), (26, 4), (27, 8)]) (hn : n < 256 ^ width)
    (rest : Bytes) :
    readHead (UInt8.ofNat (major * 32 + minor) :: (Bytes.bigEndian width n ++ rest)) =
      some (⟨major, minor, some n⟩, rest) := by
  simp only [List.mem_cons, Prod.mk.injEq, List.not_mem_nil, or_false] at hw
  have small : minor < 32 := by
    rcases hw with ⟨rfl, -⟩ | ⟨rfl, -⟩ | ⟨rfl, -⟩ | ⟨rfl, -⟩ <;> decide
  obtain ⟨high, low⟩ := toNat_first hm small
  have value : Bytes.toNat (Bytes.bigEndian width n) = n := by
    rw [Bytes.toNat_bigEndian, Nat.mod_eq_of_lt hn]
  have split := splitAt?_bigEndian width n rest
  rw [readHead]
  simp only [high, low]
  rcases hw with ⟨rfl, rfl⟩ | ⟨rfl, rfl⟩ | ⟨rfl, rfl⟩ | ⟨rfl, rfl⟩ <;> simp [split, value]

/-- A head is read from what was written of it. -/
theorem readHead_writeHead {major n : Nat} (hm : major < 8) (h : n < 2 ^ 64) (rest : Bytes) :
    ∃ minor, readHead (writeHead major n ++ rest) = some (⟨major, minor, some n⟩, rest) := by
  rw [writeHead]
  by_cases h1 : n < 24
  · obtain ⟨high, low⟩ := toNat_first hm (show n < 32 by omega)
    refine ⟨n, ?_⟩
    rw [if_pos h1, List.singleton_append, readHead]
    simp only [high, low, if_pos h1]
  rw [if_neg h1]
  by_cases h2 : n < 256
  · rw [if_pos h2]
    exact ⟨24, readHead_wide hm (by decide) h2 rest⟩
  rw [if_neg h2]
  by_cases h3 : n < 65536
  · rw [if_pos h3]
    exact ⟨25, readHead_wide hm (by decide) h3 rest⟩
  rw [if_neg h3]
  by_cases h4 : n < 4294967296
  · rw [if_pos h4]
    exact ⟨26, readHead_wide hm (by decide) h4 rest⟩
  · rw [if_neg h4]
    exact ⟨27, readHead_wide hm (by decide) h rest⟩

/-! ## Items -/

/-- A byte string. -/
theorem readItem_writeBytes {bytes : Bytes} (h : bytes.length < 2 ^ 64) {fuel : Nat} (h0 : 0 < fuel)
    (levels : Nat) (rest : Bytes) :
    readItem fuel levels (writeBytes bytes ++ rest) = some (.bytes bytes, rest) := by
  obtain ⟨fuel, rfl⟩ := Nat.exists_eq_succ_of_ne_zero (Nat.ne_of_gt h0)
  obtain ⟨minor, head⟩ := readHead_writeHead (show 2 < 8 by decide) h (bytes ++ rest)
  rw [writeBytes, List.append_assoc, readItem, head]
  simp only [readString, Bytes.splitAt?_append, fitsString]
  rfl

/-- An entry. -/
theorem readItem_writeEntry {entry : Bytes × Bytes} (hk : entry.1.length < 2 ^ 64)
    (hv : entry.2.length < 2 ^ 64) {fuel : Nat} (h4 : 4 ≤ fuel) (levels : Nat) (rest : Bytes) :
    readItem fuel (levels + 1) (writeEntry entry ++ rest) =
      some (.array [.bytes entry.1, .bytes entry.2], rest) := by
  obtain ⟨fuel, rfl⟩ := Nat.exists_eq_add_of_le' h4
  obtain ⟨minor, head⟩ := readHead_writeHead (show 4 < 8 by decide) (show 2 < 2 ^ 64 by decide)
    (writeBytes entry.1 ++ (writeBytes entry.2 ++ rest))
  rw [writeEntry, List.append_assoc, List.append_assoc, readItem, head]
  have key := readItem_writeBytes hk (show 0 < fuel + 2 by omega) levels (writeBytes entry.2 ++ rest)
  have value := readItem_writeBytes hv (show 0 < fuel + 1 by omega) levels rest
  simp only [readItems, key, value, Option.map_some]

theorem readItems_flatMap {entries : List (Bytes × Bytes)}
    (h : ∀ entry ∈ entries, entry.1.length < 2 ^ 64 ∧ entry.2.length < 2 ^ 64) {fuel : Nat}
    (hf : 5 * entries.length ≤ fuel) (levels : Nat) (rest : Bytes) :
    readItems fuel (levels + 1) entries.length (entries.flatMap writeEntry ++ rest) =
      some (entries.map fun entry => .array [.bytes entry.1, .bytes entry.2], rest) := by
  induction entries generalizing fuel with
  | nil =>
    rw [List.length_nil, readItems]
    rfl
  | cons entry entries ih =>
    obtain ⟨hk, hv⟩ := h entry List.mem_cons_self
    rw [List.length_cons] at hf
    obtain ⟨fuel, rfl⟩ := Nat.exists_eq_succ_of_ne_zero (show fuel ≠ 0 by omega)
    rw [List.length_cons, List.flatMap_cons, List.append_assoc, readItems,
      readItem_writeEntry hk hv (by omega)]
    simp only [ih (fun e he => h e (List.mem_cons_of_mem _ he)) (show 5 * entries.length ≤ fuel by omega)]
    rfl

/-! ## Snapshots -/

theorem writeHead_ne_nil (major n : Nat) : writeHead major n ≠ [] := by
  unfold writeHead
  split_ifs <;> exact List.cons_ne_nil _ _

theorem length_writeBytes (bytes : Bytes) : bytes.length < (writeBytes bytes).length := by
  rw [writeBytes, List.length_append]
  have := List.length_pos_iff.2 (writeHead_ne_nil 2 bytes.length)
  omega

theorem length_writeEntry (entry : Bytes × Bytes) :
    entry.1.length + entry.2.length + 3 ≤ (writeEntry entry).length := by
  rw [writeEntry, List.length_append, List.length_append]
  have := List.length_pos_iff.2 (writeHead_ne_nil 4 2)
  have := length_writeBytes entry.1
  have := length_writeBytes entry.2
  omega

/-- An entry takes three bytes and those of its key and its value. -/
theorem length_flatMap_writeEntry (entries : List (Bytes × Bytes)) :
    3 * entries.length ≤ (entries.flatMap writeEntry).length ∧
      ∀ entry ∈ entries,
        entry.1.length + entry.2.length ≤ (entries.flatMap writeEntry).length := by
  induction entries with
  | nil => exact ⟨Nat.le_refl _, fun _ h => absurd h List.not_mem_nil⟩
  | cons first entries ih =>
    have one := length_writeEntry first
    rw [List.flatMap_cons, List.length_append, List.length_cons]
    refine ⟨by omega, fun entry he => ?_⟩
    rcases List.mem_cons.1 he with rfl | he
    · omega
    · have := ih.2 entry he
      omega

theorem readItem_write {entries : List (Bytes × Bytes)} (hc : entries.length < 2 ^ 64)
    (h : ∀ entry ∈ entries, entry.1.length < 2 ^ 64 ∧ entry.2.length < 2 ^ 64) {fuel : Nat}
    (hf : 5 * entries.length ≤ fuel) (levels : Nat) :
    readItem (fuel + 1) (levels + 2) (write entries) =
      some (.array (entries.map fun entry => .array [.bytes entry.1, .bytes entry.2]), []) := by
  obtain ⟨minor, head⟩ := readHead_writeHead (show 4 < 8 by decide) hc
    (entries.flatMap writeEntry ++ [])
  have items := readItems_flatMap h hf levels []
  rw [write, ← List.append_nil (entries.flatMap writeEntry), readItem, head]
  simp only [items]
  rfl

theorem entries_map (entries : List (Bytes × Bytes)) :
    Cbor.entries (entries.map fun entry => .array [.bytes entry.1, .bytes entry.2]) =
      .ok entries := by
  induction entries with
  | nil => rfl
  | cons entry rest ih =>
    rw [List.map_cons, Cbor.entries, ih]
    rfl

/-- A snapshot is read as the entries that were written. -/
theorem read_write {entries : List (Bytes × Bytes)} (hc : entries.length < 2 ^ 64)
    (h : ∀ entry ∈ entries, entry.1.length < 2 ^ 64 ∧ entry.2.length < 2 ^ 64) :
    read (write entries) = .ok entries := by
  obtain ⟨count, -⟩ := length_flatMap_writeEntry entries
  have fuel : 5 * entries.length ≤ 2 * (write entries).length + 1 := by
    rw [write, List.length_append]
    omega
  have first : first? (write entries) =
      some (.array (entries.map fun entry => .array [.bytes entry.1, .bytes entry.2])) :=
    congrArg (Option.map Prod.fst) (readItem_write hc h fuel 254)
  rw [read, first]
  simp only [entries_map]
  rfl

end SnapshotStore.Cbor
