import Mathlib.Data.List.Forall2
import SnapshotStore.Proofs.Bytes
import SnapshotStore.Proofs.Text.Utf8

/-!
Well-formed UTF-8. The table of the standard has a row for each kind of character, with the bounds
of its bytes (`rows`). Main statement: bytes are read as a text exactly if they are made up of such
characters (`exists_decode_iff`).
-/

namespace SnapshotStore.Utf8

/-- The bounds of a byte that continues a character. -/
def tail : UInt8 × UInt8 := (0x80, 0xBF)

/-- The least and the greatest value of each byte of a character. The second bytes of the rows for
`E0` and `F0` leave out overlong forms, those for `ED` surrogates, and those for `F4` what lies
beyond the last character. -/
def rows : List (List (UInt8 × UInt8)) :=
  [[(0x00, 0x7F)],
    [(0xC2, 0xDF), tail],
    [(0xE0, 0xE0), (0xA0, 0xBF), tail],
    [(0xE1, 0xEC), tail, tail],
    [(0xED, 0xED), (0x80, 0x9F), tail],
    [(0xEE, 0xEF), tail, tail],
    [(0xF0, 0xF0), (0x90, 0xBF), tail, tail],
    [(0xF1, 0xF3), tail, tail, tail],
    [(0xF4, 0xF4), (0x80, 0x8F), tail, tail]]

/-- Whether a byte is in its bounds. -/
def IsWithin (b : UInt8) (bounds : UInt8 × UInt8) : Prop := bounds.1 ≤ b ∧ b ≤ bounds.2

instance (b : UInt8) (bounds : UInt8 × UInt8) : Decidable (IsWithin b bounds) :=
  inferInstanceAs (Decidable (_ ∧ _))

/-- Whether bytes are those of one character. -/
def IsCharacter (bytes : Bytes) : Prop := ∃ row ∈ rows, List.Forall₂ IsWithin bytes row

/-- Whether bytes are those of characters, one after the other. -/
def WellFormed (bytes : Bytes) : Prop :=
  ∃ characters : List Bytes, (∀ c ∈ characters, IsCharacter c) ∧ characters.flatten = bytes

/-! ## The rows and the reader -/

/-- What the reader takes from a first byte is what the rows have behind it. -/
theorem lead?_of_row {a : UInt8} {first second : UInt8 × UInt8} {more : List (UInt8 × UInt8)}
    (row : first :: second :: more ∈ rows) (within : IsWithin a first) :
    lead? a = some (more.length, second) ∧ more = List.replicate more.length tail := by
  have leads : ∀ b, ∀ row ∈ rows,
      (row.head?.any fun first => decide (IsWithin b first)) = true →
        lead? b = row.tail.head?.map fun second => ((row.drop 2).length, second) := by
    apply Bytes.forall_byte
    decide +kernel
  have tails : ∀ row ∈ rows, row.drop 2 = List.replicate (row.drop 2).length tail := by decide
  exact ⟨leads a _ row (by simpa using within), tails _ row⟩

/-- What the reader takes from a first byte is in a row. -/
theorem row_of_lead? {a : UInt8} {more : Nat} {second : UInt8 × UInt8}
    (lead : lead? a = some (more, second)) :
    ∃ first, first :: second :: List.replicate more tail ∈ rows ∧ IsWithin a first := by
  have all : ∀ b, ∀ lead ∈ lead? b, ∃ row ∈ rows,
      row.tail = lead.2 :: List.replicate lead.1 tail ∧
        ∃ first ∈ row.head?, IsWithin b first := by
    apply Bytes.forall_byte
    decide +kernel
  obtain ⟨row, mem, rest, first, head, within⟩ := all a (more, second) lead
  refine ⟨first, ?_, within⟩
  rwa [← rest, List.cons_head?_tail head]

/-! ## Characters -/

theorem isWithin_ofNat {n : Nat} {lo hi : UInt8} (hl : lo.toNat ≤ n % 64 + 128)
    (hh : n % 64 + 128 ≤ hi.toNat) : IsWithin (UInt8.ofNat (n % 64 + 128)) (lo, hi) := by
  have inside := not_outside hl hh
  simpa [IsWithin, not_or] using inside

theorem isWithin_tail (n : Nat) : IsWithin (UInt8.ofNat (n % 64 + 128)) tail :=
  isWithin_ofNat (show 128 ≤ n % 64 + 128 by omega) (show n % 64 + 128 ≤ 191 by omega)

/-- A character has a row, that of its first byte. -/
theorem isCharacter_utf8EncodeChar (c : Char) : IsCharacter (String.utf8EncodeChar c) := by
  have valid : c.val.toNat < 0xd800 ∨ (0xdfff < c.val.toNat ∧ c.val.toNat < 0x110000) := c.valid
  rw [String.utf8EncodeChar]
  generalize c.val.toNat = v at valid
  by_cases h1 : v ≤ 0x7f
  · rw [if_pos h1]
    have low : IsWithin (UInt8.ofNat v) (0x00, 0x7F) := by
      simp only [IsWithin, UInt8.le_iff_toNat_le, UInt8.toNat_ofNat', UInt8.reduceToNat]
      omega
    exact ⟨_, by simp [rows], .cons low .nil⟩
  rw [if_neg h1]
  by_cases h2 : v ≤ 0x7ff
  · obtain ⟨first, row, within⟩ := row_of_lead? (lead?_two (by omega) h2)
    rw [if_pos h2]
    exact ⟨_, row, .cons within (.cons (isWithin_tail v) .nil)⟩
  rw [if_neg h2]
  by_cases h3 : v ≤ 0xffff
  · obtain ⟨lo, hi, lead, hl, hh⟩ := lead?_three (v := v) (by omega) h3 (by omega)
    obtain ⟨first, row, within⟩ := row_of_lead? lead
    rw [if_pos h3]
    exact ⟨_, row, .cons within (.cons (isWithin_ofNat hl hh) (.cons (isWithin_tail v) .nil))⟩
  rw [if_neg h3]
  obtain ⟨lo, hi, lead, hl, hh⟩ := lead?_four (v := v) (by omega) (by omega)
  obtain ⟨first, row, within⟩ := row_of_lead? lead
  exact ⟨_, row, .cons within (.cons (isWithin_ofNat hl hh)
    (.cons (isWithin_tail (v / 64)) (.cons (isWithin_tail v) .nil)))⟩

theorem isContinuation_of_isWithin {b : UInt8} (h : IsWithin b tail) : isContinuation b = true := by
  simpa [isContinuation, tail, IsWithin] using h

/-- Each row has no bytes but those of characters. -/
theorem exists_char {bytes : Bytes} (h : IsCharacter bytes) :
    ∃ c, String.utf8EncodeChar c = bytes := by
  obtain ⟨row, mem, fits⟩ := h
  cases fits with
  | nil => exact absurd mem (by decide)
  | @cons a first s bounds within fits =>
    cases fits with
    | nil =>
      obtain rfl : first = (0x00, 0x7F) := by
        revert mem
        simp [rows]
      refine ⟨_, utf8EncodeChar_one ?_⟩
      simpa [IsWithin, UInt8.lt_iff_toNat_lt, UInt8.le_iff_toNat_le, Nat.lt_succ_iff] using within
    | @cons b second s more inside fits =>
      obtain ⟨lead, tails⟩ := lead?_of_row mem within
      have inside' : ¬(b < second.1 ∨ second.2 < b) := by simpa [IsWithin] using inside
      cases fits with
      | nil => exact ⟨_, utf8EncodeChar_two inside' lead⟩
      | @cons c third s more hc fits =>
        obtain ⟨rfl, later⟩ := List.cons.inj tails
        cases fits with
        | nil => exact ⟨_, utf8EncodeChar_three inside' (isContinuation_of_isWithin hc) lead⟩
        | @cons d fourth s more hd fits =>
          obtain ⟨rfl, -⟩ := List.cons.inj later
          cases fits with
          | nil =>
            exact ⟨_, utf8EncodeChar_four inside' (isContinuation_of_isWithin hc)
              (isContinuation_of_isWithin hd) lead⟩
          | cons =>
            -- No first byte asks for more than two bytes behind the second one.
            have bounds := bounds_of_lead? lead
            simp only [List.length_cons] at bounds
            omega

/-! ## Texts -/

theorem exists_chars {characters : List Bytes} (h : ∀ c ∈ characters, IsCharacter c) :
    ∃ s : List Char, s.map String.utf8EncodeChar = characters := by
  induction characters with
  | nil => exact ⟨[], rfl⟩
  | cons bytes characters ih =>
    obtain ⟨c, hc⟩ := exists_char (h bytes (by simp))
    obtain ⟨s, hs⟩ := ih fun c mem => h c (by simp [mem])
    exact ⟨c :: s, by rw [List.map_cons, hc, hs]⟩

theorem wellFormed_encode (text : String) : WellFormed (encode text) := by
  refine ⟨text.toList.map String.utf8EncodeChar, ?_, List.flatMap_def.symm⟩
  intro c mem
  obtain ⟨c, -, rfl⟩ := List.mem_map.1 mem
  exact isCharacter_utf8EncodeChar c

/-- Bytes are read as a text exactly if they are well formed. -/
theorem exists_decode_iff {bytes : Bytes} :
    (∃ text, decode bytes = .ok text) ↔ WellFormed bytes := by
  constructor
  · rintro ⟨text, h⟩
    rw [decode_eq_ok_iff.1 h]
    exact wellFormed_encode text
  · rintro ⟨characters, each, rfl⟩
    obtain ⟨s, rfl⟩ := exists_chars each
    refine ⟨String.ofList s, decode_eq_ok_iff.2 ?_⟩
    rw [encode, String.toList_ofList, List.flatMap_def]

end SnapshotStore.Utf8
