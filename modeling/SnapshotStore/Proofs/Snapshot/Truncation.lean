import SnapshotStore.Proofs.Snapshot.Format
import SnapshotStore.Proofs.Snapshot.Lookahead

/-!
Snapshots that have lost their end. Since no reader looks behind what it takes, nothing is read of a
field or an item that is cut off (`none_of_cut_off`). Main statement: the concise binary form is
never read where it is cut off, and tagged records are read there only if the cut lies between two
entries, and then as the entries before it (`reads_cut_off`).
-/

namespace SnapshotStore

/-- What a reader does not look behind is not read where it is cut off. -/
theorem none_of_cut_off {α : Type} {read read' : Bytes → Option (α × Bytes)}
    (onward : ∀ {s a rest}, read s = some (a, rest) →
      ∀ more, read' (s ++ more) = some (a, rest ++ more))
    {cut lost : Bytes} {a : α} (whole : read' (cut ++ lost) = some (a, [])) (short : lost ≠ []) :
    read cut = none := by
  refine Option.eq_none_iff_forall_ne_some.2 fun (b, rest) early => ?_
  rw [onward early lost] at whole
  have nothing : rest ++ lost = [] := congrArg Prod.snd (Option.some.inj whole)
  exact short (List.append_eq_nil_iff.1 nothing).2

/-! ## Tagged records -/

namespace TaggedRecords

/-- A snapshot that is cut off between two entries is one of the entries before the cut; otherwise
its fields cannot be read. -/
theorem exists_take_of_cut_off {entries : List (Bytes × Bytes)} {cut lost : Bytes}
    (fits : ∀ entry ∈ entries, (writeEntry entry).length < 2 ^ 64)
    (h : write entries = cut ++ lost) (short : lost ≠ []) :
    (∃ count < entries.length, cut = write (entries.take count)) ∨
      readFields levelLimit cut = none := by
  induction entries generalizing cut with
  | nil => exact absurd (List.append_eq_nil_iff.1 h.symm).2 short
  | cons entry entries ih =>
    obtain ⟨first, others⟩ := List.forall_mem_cons.1 fits
    rw [write, List.flatMap_cons] at h
    have parts : (∃ later, cut = writeField 1 (writeEntry entry) ++ later ∧
          write entries = later ++ lost) ∨
        ∃ missing, missing ≠ [] ∧ writeField 1 (writeEntry entry) = cut ++ missing := by
      rcases List.append_eq_append_iff.1 h with ⟨later, eq, after⟩ | ⟨missing, eq, after⟩
      · exact .inl ⟨later, eq, after⟩
      · by_cases complete : missing = []
        · subst complete
          exact .inl ⟨[], by simpa using eq.symm, after.symm⟩
        · exact .inr ⟨missing, complete, eq⟩
    rcases parts with ⟨later, rfl, after⟩ | ⟨missing, incomplete, inside⟩
    · -- The first entry is there.
      rcases ih others after with ⟨count, below, rfl⟩ | unread
      · exact .inl ⟨count + 1, Nat.succ_lt_succ below, by rw [List.take_succ_cons]; rfl⟩
      · refine .inr ?_
        rw [readFields_writeField (by decide) (by decide) first, unread]
        rfl
    · by_cases empty : cut = []
      · exact .inl ⟨0, Nat.succ_pos _, empty⟩
      · have whole := readField_writeField (show 0 < 1 by decide) (show 1 < 2 ^ 29 by decide) first
          levelLimit []
        rw [List.append_nil, inside] at whole
        refine .inr ?_
        rw [readFields_of_ne_nil empty, none_of_cut_off readField_append whole incomplete,
          Option.bind_none]

/-- What is left of a snapshot is read if and only if the cut lies between two entries. -/
theorem read_cut_off {entries : List (Bytes × Bytes)} {cut lost : Bytes}
    (fits : ∀ entry ∈ entries, (writeEntry entry).length < 2 ^ 64)
    (h : write entries = cut ++ lost) (short : lost ≠ []) :
    (∃ count < entries.length, cut = write (entries.take count) ∧
        read cut = .ok (entries.take count)) ∨
      (∀ count < entries.length, cut ≠ write (entries.take count)) ∧
        read cut = .error (.codec .taggedRecords) := by
  have others : ∀ count, ∀ entry ∈ entries.take count, (writeEntry entry).length < 2 ^ 64 :=
    fun count entry mem => fits entry (List.mem_of_mem_take mem)
  rcases exists_take_of_cut_off fits h short with ⟨count, inside, rfl⟩ | unread
  · exact .inl ⟨count, inside, rfl, read_write (others count)⟩
  · refine .inr ⟨?_, by rw [read, read?, unread]; rfl⟩
    rintro count - rfl
    rw [readFields_write (others count)] at unread
    cases unread

end TaggedRecords

/-! ## Concise binary form -/

namespace Cbor

/-- A snapshot that is cut off is not read. -/
theorem read_cut_off {entries : List (Bytes × Bytes)} (hc : entries.length < 2 ^ 64)
    (fits : ∀ entry ∈ entries, entry.1.length < 2 ^ 64 ∧ entry.2.length < 2 ^ 64)
    {cut lost : Bytes} (h : write entries = cut ++ lost) (short : lost ≠ []) :
    read cut = .error (.codec .cbor) := by
  have fuel : 5 * entries.length ≤ 2 * (write entries).length + 1 := by
    obtain ⟨count, -⟩ := length_flatMap_writeEntry entries
    rw [write, List.length_append]
    omega
  have le : 2 * cut.length + 2 ≤ 2 * (write entries).length + 2 := by
    rw [h, List.length_append]
    omega
  have whole := readItem_write hc fits fuel 254
  rw [h] at whole
  have unread : readItem (2 * cut.length + 2) levelLimit cut = none := by
    refine none_of_cut_off (fun read more => readItem_append read ?_ more) whole short
    rwa [h] at le
  rw [read, first?, unread]
  rfl

end Cbor

namespace Format

/-- In concise binary form a snapshot that has lost its end is not read. One of tagged records is
read if and only if the cut lies between two of its entries, and then as the entries that are
left. -/
theorem reads_cut_off {entries : List (Bytes × Bytes)} (h : FitMemory entries) :
    (∀ cut, cut <+: cbor.write entries → cut ≠ cbor.write entries →
      cbor.read cut = .error (.codec .cbor)) ∧
    ∀ cut, cut <+: taggedRecords.write entries → cut ≠ taggedRecords.write entries →
      (∃ count < entries.length, cut = taggedRecords.write (entries.take count) ∧
        taggedRecords.read cut = .ok (entries.take count)) ∨
      (∀ count < entries.length, cut ≠ taggedRecords.write (entries.take count)) ∧
        taggedRecords.read cut = .error (.codec .taggedRecords) := by
  have lost : ∀ {whole cut : Bytes}, cut <+: whole → cut ≠ whole →
      ∃ lost, whole = cut ++ lost ∧ lost ≠ [] := by
    rintro whole cut ⟨lost, rfl⟩ other
    exact ⟨lost, rfl, fun none => other (by rw [none, List.append_nil])⟩
  constructor
  · intro cut below other
    obtain ⟨lost, whole, short⟩ := lost below other
    exact Cbor.read_cut_off (Nat.lt_trans h.count (by decide)) h.length_lt whole short
  · intro cut below other
    obtain ⟨lost, whole, short⟩ := lost below other
    exact TaggedRecords.read_cut_off h.length_writeEntry whole short

/-- Three entries: in one form cut off behind the first, in the other behind the second, and in the
middle of the second. -/
theorem reads_cut_off_between :
    let entries : List (Bytes × Bytes) := [([1], [2, 3]), ([], []), ([4], [])]
    FitMemory entries ∧
      cbor.read [0x83, 0x82, 0x41, 1, 0x42, 2, 3] = .error (.codec .cbor) ∧
      taggedRecords.read [10, 7, 10, 1, 1, 18, 2, 2, 3, 10, 0] = .ok [([1], [2, 3]), ([], [])] ∧
      taggedRecords.read [10, 7, 10, 1, 1, 18, 2, 2, 3, 10] = .error (.codec .taggedRecords) := by
  intro entries
  have fits : FitMemory entries :=
    ⟨by simp only [entries]; decide, by simp only [entries]; decide +kernel⟩
  obtain ⟨never, between⟩ := reads_cut_off fits
  refine ⟨fits, never _ (by decide +kernel) (by decide +kernel), ?_, ?_⟩
  · obtain ⟨count, inside, eq, read⟩ | ⟨other, -⟩ :=
      between [10, 7, 10, 1, 1, 18, 2, 2, 3, 10, 0] (by decide +kernel) (by decide +kernel)
    · have second : ∀ count < 3, [10, 7, 10, 1, 1, 18, 2, 2, 3, 10, 0] =
          taggedRecords.write (entries.take count) → count = 2 := by decide +kernel
      rw [second count inside eq] at read
      exact read
    · exact absurd (by decide +kernel) (other 2 (by decide))
  · obtain ⟨count, inside, eq, -⟩ | ⟨-, read⟩ :=
      between [10, 7, 10, 1, 1, 18, 2, 2, 3, 10] (by decide +kernel) (by decide +kernel)
    · have inside' : ∀ count < 3, [10, 7, 10, 1, 1, 18, 2, 2, 3, 10] ≠
          taggedRecords.write (entries.take count) := by decide +kernel
      exact absurd eq (inside' count inside)
    · exact read

end Format

end SnapshotStore
