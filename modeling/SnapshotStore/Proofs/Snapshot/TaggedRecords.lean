import Mathlib.Algebra.Group.Nat.Defs
import SnapshotStore.Snapshot.TaggedRecords

/-!
Tagged records read back. A number, a field, the fields of a message and a snapshot are each read
from what was written, whatever follows. Main statement: a snapshot whose entries take less than
2^64 bytes each is read as the entries that were written (`read_write`).
-/

namespace SnapshotStore.TaggedRecords

/-! ## Numbers -/

/-- A number in at most `left + 1` digits, the last of which is at most one. -/
theorem readVarint_writeVarint {left n : Nat} (h : n < 2 * 128 ^ left) (rest : Bytes) :
    readVarint (left + 1) (writeVarint n ++ rest) = some (n, rest) := by
  induction left generalizing n with
  | zero =>
    have small : n < 2 := by omega
    have byte : (UInt8.ofNat n).toNat = n := by
      rw [UInt8.toNat_ofNat']
      omega
    have lt : UInt8.ofNat n < 128 := UInt8.lt_iff_toNat_lt.2 (by rw [byte]; show n < 128; omega)
    have fits : ¬((0 : Nat) = 0 ∧ 2 ≤ UInt8.ofNat n) := by
      rw [UInt8.le_iff_toNat_le, byte]
      show ¬(_ ∧ 2 ≤ n)
      omega
    rw [writeVarint, if_pos (by omega), List.singleton_append, readVarint, if_pos lt, if_neg fits,
      byte]
  | succ left ih =>
    rw [writeVarint]
    by_cases small : n < 128
    · have byte : (UInt8.ofNat n).toNat = n := by
        rw [UInt8.toNat_ofNat']
        omega
      have lt : UInt8.ofNat n < 128 := UInt8.lt_iff_toNat_lt.2 (by rw [byte]; exact small)
      rw [if_pos small, List.singleton_append, readVarint, if_pos lt, if_neg (by omega), byte]
    · have byte : (UInt8.ofNat (n % 128 + 128)).toNat = n % 128 + 128 := by
        rw [UInt8.toNat_ofNat']
        omega
      have ge : ¬UInt8.ofNat (n % 128 + 128) < 128 := by
        rw [UInt8.lt_iff_toNat_lt, byte]
        show ¬_ < 128
        omega
      have value : (n % 128 + 128) % 128 + 128 * (n / 128) = n := by omega
      have smaller : n / 128 < 2 * 128 ^ left := by
        rw [Nat.pow_succ] at h
        omega
      rw [if_neg small, List.cons_append, readVarint, if_neg ge, ih smaller, byte, Option.map_some]
      exact congrArg (fun m => some (m, rest)) value

theorem readNumber_writeVarint {n : Nat} (h : n < 2 ^ 64) (rest : Bytes) :
    readNumber (writeVarint n ++ rest) = some (n, rest) :=
  readVarint_writeVarint (by rwa [show 2 * 128 ^ 9 = 2 ^ 64 by decide]) rest

theorem writeVarint_ne_nil (n : Nat) : writeVarint n ≠ [] := by
  rw [writeVarint]
  by_cases h : n < 128
  · rw [if_pos h]
    exact List.cons_ne_nil _ _
  · rw [if_neg h]
    exact List.cons_ne_nil _ _

/-- A number takes a byte for each of its digits. -/
theorem length_writeVarint {digits n : Nat} (h : n < 128 ^ (digits + 1)) :
    (writeVarint n).length ≤ digits + 1 := by
  induction digits generalizing n with
  | zero =>
    rw [writeVarint, if_pos (by omega)]
    exact Nat.le_refl _
  | succ digits ih =>
    rw [writeVarint]
    by_cases small : n < 128
    · rw [if_pos small]
      exact Nat.succ_le_succ (Nat.zero_le _)
    · have smaller : n / 128 < 128 ^ (digits + 1) := by
        rw [Nat.pow_succ] at h
        omega
      rw [if_neg small, List.length_cons]
      exact Nat.succ_le_succ (ih smaller)

/-! ## Fields -/

theorem readPayload_writeVarint {bytes : Bytes} (h : bytes.length < 2 ^ 64) (rest : Bytes) :
    readPayload (writeVarint bytes.length ++ (bytes ++ rest)) = some (bytes, rest) := by
  rw [readPayload, readNumber_writeVarint h]
  exact Bytes.splitAt?_append bytes rest

theorem readKey_writeVarint {number : Nat} (h0 : 0 < number) (h : number < 2 ^ 29)
    (rest : Bytes) :
    readKey (writeVarint (number * 8 + 2) ++ rest) = some (number, .lengthDelimited, rest) := by
  have low : (number * 8 + 2) % 8 = 2 := by omega
  have high : (number * 8 + 2) / 8 = number := by omega
  rw [readKey, readNumber_writeVarint (by omega)]
  simp only [low, high, wire?]
  rw [if_pos (by omega)]
  rfl

/-- A field of bytes. -/
theorem readField_writeField {number : Nat} (h0 : 0 < number) (h : number < 2 ^ 29) {bytes : Bytes}
    (hb : bytes.length < 2 ^ 64) (levels : Nat) (rest : Bytes) :
    readField levels (writeField number bytes ++ rest) = some (.payload number bytes, rest) := by
  rw [writeField, List.append_assoc, List.append_assoc, readField, readKey_writeVarint h0 h]
  simp only [readPayload_writeVarint hb]
  rfl

theorem writeField_ne_nil (number : Nat) (bytes : Bytes) : writeField number bytes ≠ [] :=
  List.append_ne_nil_of_left_ne_nil (writeVarint_ne_nil _) _

/-- A message begins with a field, unless it is empty. -/
theorem readFields_of_ne_nil {s : Bytes} (h : s ≠ []) (levels : Nat) :
    readFields levels s =
      (readField levels s).bind fun r => (readFields levels r.2).map (r.1 :: ·) := by
  cases s with
  | nil => exact absurd rfl h
  | cons b s =>
    rw [readFields]
    split
    · next unread => rw [unread, Option.bind_none]
    · next read => rw [read, Option.bind_some]

/-- The fields of a message that begins with a field of bytes. -/
theorem readFields_writeField {number : Nat} (h0 : 0 < number) (h : number < 2 ^ 29) {bytes : Bytes}
    (hb : bytes.length < 2 ^ 64) (levels : Nat) (rest : Bytes) :
    readFields levels (writeField number bytes ++ rest) =
      (readFields levels rest).map (.payload number bytes :: ·) := by
  have nonempty : writeField number bytes ++ rest ≠ [] := fun empty =>
    writeField_ne_nil number bytes (List.append_eq_nil_iff.1 empty).1
  rw [readFields_of_ne_nil nonempty, readField_writeField h0 h hb levels rest, Option.bind_some]

/-! ## Snapshots -/

theorem length_writeField (number : Nat) (bytes : Bytes) :
    bytes.length ≤ (writeField number bytes).length := by
  rw [writeField, List.length_append, List.length_append]
  omega

theorem length_writeOptional (number : Nat) (bytes : Bytes) :
    bytes.length ≤ (writeOptional number bytes).length := by
  rw [writeOptional]
  by_cases h : bytes.isEmpty
  · rw [List.isEmpty_iff.1 h]
    exact Nat.zero_le _
  · rw [if_neg h]
    exact length_writeField number bytes

/-- A field of an entry takes at most eleven bytes besides its payload. -/
theorem length_writeOptional_le {number : Nat} (h : number < 16) {bytes : Bytes}
    (hb : bytes.length < 2 ^ 64) : (writeOptional number bytes).length ≤ bytes.length + 11 := by
  have key : (writeVarint (number * 8 + 2)).length ≤ 0 + 1 := length_writeVarint (by omega)
  have length : (writeVarint bytes.length).length ≤ 9 + 1 := length_writeVarint (by omega)
  rw [writeOptional]
  by_cases he : bytes.isEmpty
  · rw [if_pos he]
    exact Nat.zero_le _
  · rw [if_neg he, writeField, List.length_append, List.length_append]
    omega

theorem length_writeEntry_le {entry : Bytes × Bytes} (hk : entry.1.length < 2 ^ 64)
    (hv : entry.2.length < 2 ^ 64) :
    (writeEntry entry).length ≤ entry.1.length + entry.2.length + 22 := by
  have key := length_writeOptional_le (show 1 < 16 by decide) hk
  have value := length_writeOptional_le (show 2 < 16 by decide) hv
  rw [writeEntry, List.length_append]
  omega

/-- A snapshot is at least as long as each of its entries. -/
theorem length_writeEntry_le_write {entries : List (Bytes × Bytes)} {entry : Bytes × Bytes}
    (h : entry ∈ entries) : (writeEntry entry).length ≤ (write entries).length := by
  have within : writeField 1 (writeEntry entry) ∈
      entries.map fun entry => writeField 1 (writeEntry entry) := List.mem_map_of_mem h
  rw [write, List.flatMap_def]
  exact Nat.le_trans (length_writeField 1 (writeEntry entry))
    (List.sublist_flatten_of_mem within).length_le

/-- A field that may be left out, followed by fields. -/
theorem readFields_writeOptional {number : Nat} (h0 : 0 < number) (h : number < 2 ^ 29)
    {bytes : Bytes} (hb : bytes.length < 2 ^ 64) (levels : Nat) (rest : Bytes) :
    readFields levels (writeOptional number bytes ++ rest) =
      (readFields levels rest).map
        ((if bytes.isEmpty then [] else [.payload number bytes]) ++ ·) := by
  rw [writeOptional]
  by_cases he : bytes.isEmpty
  · rw [if_pos he, if_pos he]
    simp
  · rw [if_neg he, if_neg he]
    exact readFields_writeField h0 h hb levels rest

/-- An entry is read from its message; what is left out is empty. -/
theorem readEntry_writeEntry {entry : Bytes × Bytes} (h : (writeEntry entry).length < 2 ^ 64) :
    readEntry (writeEntry entry) = some entry := by
  obtain ⟨key, value⟩ := entry
  have hk := length_writeOptional 1 key
  have hv := length_writeOptional 2 value
  have fits : (writeOptional 1 key).length + (writeOptional 2 value).length < 2 ^ 64 := by
    rwa [writeEntry, List.length_append] at h
  have last : readFields (levelLimit - 1) [] = some [] := by rw [readFields]
  show (readFields (levelLimit - 1) (writeOptional 1 key ++ writeOptional 2 value)).bind _ = _
  rw [readFields_writeOptional (by decide) (by decide) (by omega),
    ← List.append_nil (writeOptional 2 value),
    readFields_writeOptional (by decide) (by decide) (by omega), last]
  by_cases ek : key = [] <;> by_cases ev : value = [] <;> simp [ek, ev, addField]

theorem readFields_write {entries : List (Bytes × Bytes)}
    (h : ∀ entry ∈ entries, (writeEntry entry).length < 2 ^ 64) :
    readFields levelLimit (write entries) =
      some (entries.map fun entry => .payload 1 (writeEntry entry)) := by
  induction entries with
  | nil => rw [write, List.flatMap_nil, readFields]; rfl
  | cons entry entries ih =>
    obtain ⟨first, others⟩ := List.forall_mem_cons.1 h
    rw [write, List.flatMap_cons, readFields_writeField (by decide) (by decide) first]
    show (readFields levelLimit (write entries)).map _ = _
    rw [ih others]
    rfl

theorem entries?_payloads {entries : List (Bytes × Bytes)}
    (h : ∀ entry ∈ entries, (writeEntry entry).length < 2 ^ 64) :
    entries? (entries.map fun entry => .payload 1 (writeEntry entry)) = some entries := by
  induction entries with
  | nil => rfl
  | cons entry entries ih =>
    obtain ⟨first, others⟩ := List.forall_mem_cons.1 h
    rw [List.map_cons, entries?, readEntry_writeEntry first, ih others]
    rfl

/-- A snapshot is read as the entries that were written. -/
theorem read_write {entries : List (Bytes × Bytes)}
    (h : ∀ entry ∈ entries, (writeEntry entry).length < 2 ^ 64) :
    read (write entries) = .ok entries := by
  rw [read, read?, readFields_write h, Option.bind_some, entries?_payloads h]

end SnapshotStore.TaggedRecords
