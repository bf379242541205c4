import SnapshotStore.Proofs.Snapshot.Cbor
import SnapshotStore.Proofs.Snapshot.TaggedRecords
import SnapshotStore.Snapshot.Format

/-!
Snapshots read back in their format. Main statement: whatever entries a memory can hold, in whatever
order and however often, are read from what was written of them (`reads_entries_written`).
-/

namespace SnapshotStore

/-- Entries that fit a memory with addresses of 64 bits, in which each key stands beside its value:
their number is below 2^63, and so are the bytes of each entry. -/
structure FitMemory (entries : List (Bytes × Bytes)) : Prop where
  count : entries.length < 2 ^ 63
  each : ∀ entry ∈ entries, entry.1.length + entry.2.length < 2 ^ 63

/-- An entry is a message of its own in tagged records, whose length has to be written before it. -/
theorem FitMemory.length_writeEntry {entries : List (Bytes × Bytes)} (h : FitMemory entries) :
    ∀ entry ∈ entries, (TaggedRecords.writeEntry entry).length < 2 ^ 64 := by
  intro entry mem
  have fits := h.each entry mem
  have := TaggedRecords.length_writeEntry_le (show entry.1.length < 2 ^ 64 by omega)
    (show entry.2.length < 2 ^ 64 by omega)
  omega

/-- The parts of an entry are strings of their own in concise binary form. -/
theorem FitMemory.length_lt {entries : List (Bytes × Bytes)} (h : FitMemory entries) :
    ∀ entry ∈ entries, entry.1.length < 2 ^ 64 ∧ entry.2.length < 2 ^ 64 := by
  intro entry mem
  have fits := h.each entry mem
  omega

namespace Format

/-- A snapshot that is not too long is read as the entries that were written. -/
theorem read_write (format : Format) {entries : List (Bytes × Bytes)}
    (h : (format.write entries).length < 2 ^ 64) :
    format.read (format.write entries) = .ok entries := by
  cases format with
  | taggedRecords =>
    exact TaggedRecords.read_write fun entry mem =>
      Nat.lt_of_le_of_lt (TaggedRecords.length_writeEntry_le_write mem) h
  | cbor =>
    obtain ⟨count, each⟩ := Cbor.length_flatMap_writeEntry entries
    have total : (entries.flatMap Cbor.writeEntry).length < 2 ^ 64 := by
      have whole : (Cbor.write entries).length < 2 ^ 64 := h
      rw [Cbor.write, List.length_append] at whole
      omega
    refine Cbor.read_write (by omega) fun entry mem => ?_
    have := each entry mem
    omega

/-- Both formats give back the entries that were written, in their order and as often as they were
there, the empty keys and values among them. -/
theorem reads_entries_written (format : Format) {entries : List (Bytes × Bytes)}
    (h : FitMemory entries) : format.read (format.write entries) = .ok entries := by
  cases format with
  | taggedRecords => exact TaggedRecords.read_write h.length_writeEntry
  | cbor => exact Cbor.read_write (Nat.lt_trans h.count (by decide)) h.length_lt

/-- Empty fields, an entry that is there twice, no order, and lengths on both sides of those at
which the heads of the two formats grow. -/
theorem reads_entries_of_all_kinds :
    let entries : List (Bytes × Bytes) :=
      [([], []), ([2], []), ([], [1]), ([1], [0, 255]), ([1], [0, 255]),
        (List.replicate 23 7, List.replicate 24 7), (List.replicate 127 9, List.replicate 128 9),
        (List.replicate 255 0, List.replicate 256 0)]
    FitMemory entries ∧ taggedRecords.read (taggedRecords.write entries) = .ok entries ∧
      cbor.read (cbor.write entries) = .ok entries := by
  intro entries
  have fits : FitMemory entries :=
    ⟨by simp only [entries]; decide, by simp only [entries]; decide +kernel⟩
  exact ⟨fits, reads_entries_written .taggedRecords fits, reads_entries_written .cbor fits⟩

end Format

end SnapshotStore
