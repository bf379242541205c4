import Mathlib.Algebra.Group.Nat.Defs
import Mathlib.Data.List.Induction
import Mathlib.Tactic.Ring
import SnapshotStore.Bytes.Basic

/-!
Byte strings as the numbers that they write. Those of one length are ordered as their numbers
(`lt_iff_toNat_lt`).
-/

namespace SnapshotStore

namespace Bytes

/-- What holds of all values of a byte holds of all bytes. -/
theorem forall_byte {P : UInt8 → Prop} (h : ∀ n : Fin 256, P (UInt8.ofNat n.val)) (b : UInt8) :
    P b := by
  have value := h ⟨b.toNat, b.toNat_lt⟩
  rwa [UInt8.ofNat_toNat] at value

theorem toNat_bigEndian (width n : Nat) : toNat (bigEndian width n) = n % 256 ^ width := by
  induction width generalizing n with
  | zero => simp [bigEndian, toNat, Nat.mod_one]
  | succ width ih =>
    rw [bigEndian, toNat_append_singleton, ih, Nat.pow_succ', Nat.mod_mul, UInt8.toNat_ofNat']
    omega

theorem toNat_cons (b : UInt8) (s : Bytes) :
    toNat (b :: s) = b.toNat * 256 ^ s.length + toNat s := by
  induction s using List.reverseRecOn with
  | nil => simp [toNat]
  | append_singleton s c ih =>
    rw [← List.cons_append, toNat_append_singleton, ih, toNat_append_singleton, List.length_append,
      List.length_singleton, Nat.pow_succ]
    ring

theorem toNat_lt (s : Bytes) : toNat s < 256 ^ s.length := by
  induction s with
  | nil => simp [toNat]
  | cons b s ih =>
    have hb : b.toNat * 256 ^ s.length ≤ 255 * 256 ^ s.length :=
      Nat.mul_le_mul_right _ (by have := b.toNat_lt; omega)
    rw [toNat_cons, List.length_cons, Nat.pow_succ]
    omega

/-- Byte strings of one length are ordered as the numbers that they write. -/
theorem lt_iff_toNat_lt {s t : Bytes} (h : s.length = t.length) : s < t ↔ toNat s < toNat t := by
  induction s generalizing t with
  | nil =>
    rw [List.eq_nil_of_length_eq_zero h.symm]
    simp
  | cons b s ih =>
    cases t with
    | nil => simp at h
    | cons c t =>
      have hl : s.length = t.length := by simpa using h
      have hs := toNat_lt s
      have ht := toNat_lt t
      rw [List.cons_lt_cons_iff, ih hl, toNat_cons, toNat_cons, hl]
      rw [hl] at hs
      constructor
      · rintro (hlt | ⟨rfl, hlt⟩)
        · have : (b.toNat + 1) * 256 ^ t.length ≤ c.toNat * 256 ^ t.length :=
            Nat.mul_le_mul_right _ (UInt8.lt_iff_toNat_lt.1 hlt)
          rw [Nat.add_mul] at this
          omega
        · omega
      · intro hlt
        rcases Std.lt_trichotomy b c with hbc | hbc | hbc
        · exact .inl hbc
        · subst hbc
          exact .inr ⟨rfl, by omega⟩
        · have : (c.toNat + 1) * 256 ^ t.length ≤ b.toNat * 256 ^ t.length :=
            Nat.mul_le_mul_right _ (UInt8.lt_iff_toNat_lt.1 hbc)
          rw [Nat.add_mul] at this
          omega

/-- What follows does not matter behind different beginnings of one length. -/
theorem append_lt_append {s t : Bytes} (length : s.length = t.length) (lt : s < t) (u v : Bytes) :
    s ++ u < t ++ v := by
  induction s generalizing t with
  | nil =>
    rw [List.eq_nil_of_length_eq_zero length.symm] at lt
    exact absurd lt Std.lt_irrefl
  | cons b s ih =>
    cases t with
    | nil => simp at length
    | cons c t =>
      rw [List.cons_append, List.cons_append, List.cons_lt_cons_iff]
      rcases List.cons_lt_cons_iff.1 lt with first | ⟨same, rest⟩
      · exact .inl first
      · exact .inr ⟨same, ih (by simpa using length) rest⟩

theorem singleton_lt_singleton {m n : Nat} (h : m < n) (small : n < 256) :
    [UInt8.ofNat m] < [UInt8.ofNat n] := by
  rw [List.cons_lt_cons_iff, UInt8.lt_iff_toNat_lt, UInt8.toNat_ofNat', UInt8.toNat_ofNat']
  omega

/-- A byte string is given by its length and the number that it writes. -/
theorem bigEndian_toNat (s : Bytes) : bigEndian s.length (toNat s) = s := by
  induction s using List.reverseRecOn with
  | nil => rfl
  | append_singleton s b ih =>
    have small := b.toNat_lt
    have upper : (toNat s * 256 + b.toNat) / 256 = toNat s := by omega
    have last : UInt8.ofNat (toNat s * 256 + b.toNat) = b := by
      rw [← UInt8.toNat_inj, UInt8.toNat_ofNat']
      omega
    rw [List.length_append, List.length_singleton, bigEndian, toNat_append_singleton, upper, ih,
      last]

theorem bigEndian_lt_iff {width m n : Nat} (hm : m < 256 ^ width) (hn : n < 256 ^ width) :
    bigEndian width m < bigEndian width n ↔ m < n := by
  rw [lt_iff_toNat_lt (by simp), toNat_bigEndian, toNat_bigEndian, Nat.mod_eq_of_lt hm,
    Nat.mod_eq_of_lt hn]

end Bytes

end SnapshotStore
