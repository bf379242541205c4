/-!
Bytes: lists of octets, their order, and whole numbers written in a fixed count of bytes, highest
first. A list is read from its head, so each reader of this library is a recursion on its input.
-/

namespace SnapshotStore

/-- A string of octets. Two are compared position by position, a proper beginning coming first. -/
abbrev Bytes := List UInt8

instance : Std.IsLinearOrder Bytes := inferInstance

instance : Std.LawfulOrderLT Bytes := inferInstance

namespace Bytes

/-- The last `width` base-256 digits of `n`, highest first. -/
def bigEndian : (width n : Nat) → Bytes
  | 0, _ => []
  | width + 1, n => bigEndian width (n / 256) ++ [UInt8.ofNat n]

/-- The number whose base-256 digits are `bytes`, highest first. -/
def toNat (bytes : Bytes) : Nat :=
  bytes.foldl (fun acc b => acc * 256 + b.toNat) 0

/-- Splits off the first `count` bytes, unless fewer are left. -/
def splitAt? : (count : Nat) → Bytes → Option (Bytes × Bytes)
  | 0, rest => some ([], rest)
  | _ + 1, [] => none
  | count + 1, b :: rest => (splitAt? count rest).map fun (taken, left) => (b :: taken, left)

@[simp] theorem length_bigEndian (width n : Nat) : (bigEndian width n).length = width := by
  induction width generalizing n with
  | zero => rfl
  | succ width ih => simp [bigEndian, ih]

theorem toNat_append_singleton (bytes : Bytes) (b : UInt8) :
    toNat (bytes ++ [b]) = toNat bytes * 256 + b.toNat := by
  simp [toNat]

theorem splitAt?_append (a rest : Bytes) : splitAt? a.length (a ++ rest) = some (a, rest) := by
  induction a with
  | nil => cases rest <;> rfl
  | cons b a ih => simp [splitAt?, ih]

theorem append_of_splitAt? {count : Nat} {s taken rest : Bytes}
    (h : splitAt? count s = some (taken, rest)) : s = taken ++ rest ∧ taken.length = count := by
  fun_induction splitAt? count s generalizing taken rest with
  | case1 => simp_all
  | case2 => simp at h
  | case3 count b s ih =>
    obtain ⟨⟨t, r⟩, ht, he⟩ := Option.map_eq_some_iff.1 h
    simp only [Prod.mk.injEq] at he
    obtain ⟨rfl, rfl⟩ := he
    simp [ih ht]

/-- What a successful split leaves is no longer than its input. -/
theorem length_rest_le {count : Nat} {s taken rest : Bytes}
    (h : splitAt? count s = some (taken, rest)) : rest.length ≤ s.length := by
  rw [(append_of_splitAt? h).1]
  simp

end Bytes

end SnapshotStore
