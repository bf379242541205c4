import Mathlib.Tactic.SplitIfs
import SnapshotStore.Proofs.Bytes
import SnapshotStore.Text.Utf8

/-!
The order of texts in UTF-8. A character is a first byte, which tells how many others there are, and
six bits in each of these (`utf8EncodeChar_eq`), so that its bytes are below those of a later one
(`utf8EncodeChar_lt`). Main statement: the bytes of texts are ordered as the numbers of their
characters (`encode_lt_iff`).
-/

namespace SnapshotStore

/-- What keeps a linear order tells it. -/
theorem lt_iff_of_increasing {α β : Type} [LT α] [LE α] [Std.IsLinearOrder α] [Std.LawfulOrderLT α]
    [LT β] [LE β] [Std.IsLinearOrder β] [Std.LawfulOrderLT β] {f : α → β}
    (increasing : ∀ {a b}, a < b → f a < f b) {a b : α} : f a < f b ↔ a < b := by
  refine ⟨fun lt => ?_, increasing⟩
  rcases Std.lt_trichotomy a b with less | rfl | more
  · exact less
  · exact absurd lt Std.lt_irrefl
  · exact absurd (Std.lt_trans lt (increasing more)) Std.lt_irrefl

namespace Utf8

/-! ## Characters -/

/-- The least first byte of characters with `count` other bytes. -/
def leastFirst : (count : Nat) → Nat
  | 0 => 0
  | 1 => 0xC0
  | 2 => 0xE0
  | 3 => 0xF0
  | _ => 0xF8

/-- The lowest groups of six bits of a number, `count` of them, in a byte each. -/
def continuation : (count n : Nat) → Bytes
  | 0, _ => []
  | count + 1, n => continuation count (n / 64) ++ [UInt8.ofNat (n % 64 + 128)]

/-- A first byte with the bits that are left over, and the others behind it. -/
def spread (count n : Nat) : Bytes :=
  [UInt8.ofNat (leastFirst count + n / 64 ^ count)] ++ continuation count n

@[simp] theorem length_continuation (count n : Nat) : (continuation count n).length = count := by
  induction count generalizing n with
  | zero => rfl
  | succ count ih => simp [continuation, ih]

@[simp] theorem length_spread (count n : Nat) : (spread count n).length = count + 1 := by
  simp [spread]

theorem leastFirst_mono {i k : Nat} (h : i < k) (small : k ≤ 4) :
    leastFirst (i + 1) ≤ leastFirst k := by
  have all : ∀ k ≤ 4, ∀ i < k, leastFirst (i + 1) ≤ leastFirst k := by decide
  exact all k small i h

/-- Six more bits in a further byte keep the order. -/
theorem spread_lt_spread {count m n : Nat} (h : m < n)
    (fits : leastFirst count + n / 64 ^ count < 256) : spread count m < spread count n := by
  unfold spread
  -- The bits of the first byte are those of `n / 64` above one byte less, with the same mark.
  generalize leastFirst count = least at fits
  induction count generalizing m n with
  | zero =>
    simp only [Nat.pow_zero, Nat.div_one] at fits
    simp only [Nat.pow_zero, Nat.div_one, continuation, List.append_nil]
    exact Bytes.singleton_lt_singleton (by omega) fits
  | succ count ih =>
    simp only [continuation, Nat.pow_succ', ← Nat.div_div_eq_div_mul, ← List.append_assoc] at fits ⊢
    rcases Nat.lt_or_eq_of_le (Nat.div_le_div_right h.le : m / 64 ≤ n / 64) with less | equal
    · exact Bytes.append_lt_append (by simp) (ih less fits) _ _
    · rw [equal]
      exact List.append_left_lt (Bytes.singleton_lt_singleton (by omega) (by omega))

/-- The bytes of a character, of which the first is below those of longer characters. -/
theorem utf8EncodeChar_eq (c : Char) : ∃ count < 4,
    leastFirst count + c.toNat / 64 ^ count < leastFirst (count + 1) ∧
      String.utf8EncodeChar c = spread count c.toNat := by
  have valid : c.toNat < 0x110000 := by
    have := c.valid
    unfold UInt32.isValidChar Nat.isValidChar at this
    unfold Char.toNat
    omega
  unfold String.utf8EncodeChar
  rw [← Char.toNat]
  generalize c.toNat = v at valid ⊢
  by_cases h1 : v ≤ 0x7f
  · refine ⟨0, by decide, by simp [leastFirst]; omega, ?_⟩
    simp [spread, continuation, leastFirst, h1]
  by_cases h2 : v ≤ 0x7ff
  · refine ⟨1, by decide, by simp [leastFirst]; omega, ?_⟩
    have first : v / 64 % 32 + 192 = 192 + v / 64 := by omega
    simp [spread, continuation, leastFirst, h1, h2, first]
  by_cases h3 : v ≤ 0xffff
  · refine ⟨2, by decide, by simp [leastFirst]; omega, ?_⟩
    have first : v / 4096 % 16 + 224 = 224 + v / 4096 := by omega
    simp [spread, continuation, leastFirst, h1, h2, h3, first]
  · refine ⟨3, by decide, by simp [leastFirst]; omega, ?_⟩
    have first : v / 262144 % 8 + 240 = 240 + v / 262144 := by omega
    simp [spread, continuation, leastFirst, h1, h2, h3, first, Nat.div_div_eq_div_mul]

theorem utf8Size_mono {c d : Char} (h : c ≤ d) : c.utf8Size ≤ d.utf8Size := by
  have le : c.val.toNat ≤ d.val.toNat := h
  unfold Char.utf8Size
  simp only [UInt32.le_iff_toNat_le]
  split_ifs <;> simp_all <;> omega

/-- The bytes of a character are below those of a later one, whatever follows. -/
theorem utf8EncodeChar_lt {c d : Char} (h : c < d) (u v : Bytes) :
    String.utf8EncodeChar c ++ u < String.utf8EncodeChar d ++ v := by
  have lt : c.toNat < d.toNat := h
  obtain ⟨i, hi, lower, hc⟩ := utf8EncodeChar_eq c
  obtain ⟨k, hk, upper, hd⟩ := utf8EncodeChar_eq d
  have top : leastFirst (k + 1) ≤ 0xF8 := leastFirst_mono hk (Nat.le_refl 4)
  have size := utf8Size_mono (Std.le_of_lt h)
  rw [← String.length_utf8EncodeChar, ← String.length_utf8EncodeChar, hc, hd, length_spread,
    length_spread, Nat.add_le_add_iff_right] at size
  rw [hc, hd]
  rcases Nat.lt_or_eq_of_le size with fewer | rfl
  · have first : leastFirst i + c.toNat / 64 ^ i < leastFirst k + d.toNat / 64 ^ k :=
      calc
        _ < leastFirst (i + 1) := lower
        _ ≤ leastFirst k := leastFirst_mono fewer (Nat.le_of_lt hk)
        _ ≤ _ := Nat.le_add_right _ _
    unfold spread
    rw [List.append_assoc, List.append_assoc]
    refine Bytes.append_lt_append ?_ (Bytes.singleton_lt_singleton first (by omega)) _ _
    simp
  · exact Bytes.append_lt_append (by simp) (spread_lt_spread lt (by omega)) u v

/-! ## Texts -/

theorem flatMap_utf8EncodeChar_lt {s t : List Char} (h : s < t) :
    s.flatMap String.utf8EncodeChar < t.flatMap String.utf8EncodeChar := by
  induction t generalizing s with
  | nil => exact absurd h (List.not_lt_nil s)
  | cons d t ih =>
    rw [List.flatMap_cons]
    cases s with
    | nil =>
      obtain ⟨b, rest, hd⟩ := List.exists_cons_of_ne_nil (String.utf8EncodeChar_ne_nil (c := d))
      rw [hd]
      exact List.nil_lt_cons _ _
    | cons c s =>
      rw [List.flatMap_cons]
      rcases List.cons_lt_cons_iff.1 h with first | ⟨rfl, rest⟩
      · exact utf8EncodeChar_lt first _ _
      · exact List.append_left_lt (ih rest)

/-- The bytes of texts are ordered as the numbers of their characters. -/
theorem encode_lt_iff {s t : String} :
    encode s < encode t ↔ s.toList.map Char.toNat < t.toList.map Char.toNat := by
  have bytes : encode s < encode t ↔ s.toList < t.toList :=
    lt_iff_of_increasing flatMap_utf8EncodeChar_lt
  have increasing : ∀ {l r : List Char}, l < r → l.map Char.toNat < r.map Char.toNat :=
    List.map_lt fun _ _ lt => lt
  rw [bytes, lt_iff_of_increasing increasing]

end Utf8

end SnapshotStore
