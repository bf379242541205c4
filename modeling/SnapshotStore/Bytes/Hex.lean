import SnapshotStore.Bytes.Basic

/-!
Hexadecimal text of bytes: two lower-case digits a byte, and the reader that accepts digits of
either case. Main statement: the digits of a nibble read back (`digitValue?_digit`).
-/

namespace SnapshotStore.Hex

/-- The digit for a value below sixteen, letters in lower case. -/
def digit (n : Nat) : Char :=
  Char.ofNat (if n < 10 then 0x30 + n else 0x57 + n)

/-- The digit for a value below sixteen, letters in upper case. -/
def upperDigit (n : Nat) : Char :=
  Char.ofNat (if n < 10 then 0x30 + n else 0x37 + n)

def digitValue? (c : Char) : Option Nat :=
  if '0' ≤ c ∧ c ≤ '9' then some (c.toNat - 0x30)
  else if 'a' ≤ c ∧ c ≤ 'f' then some (c.toNat - 0x57)
  else if 'A' ≤ c ∧ c ≤ 'F' then some (c.toNat - 0x37)
  else none

def encode (bytes : Bytes) : String :=
  String.ofList (bytes.flatMap fun b => [digit (b.toNat / 16), digit (b.toNat % 16)])

/-- The bytes whose digits are given; an odd count or another character is refused. -/
def decodeChars? : List Char → Option Bytes
  | [] => some []
  | [_] => none
  | a :: b :: rest => do
    let hi ← digitValue? a
    let lo ← digitValue? b
    let bytes ← decodeChars? rest
    pure (UInt8.ofNat (16 * hi + lo) :: bytes)

@[inherit_doc decodeChars?]
def decode? (text : String) : Option Bytes :=
  decodeChars? text.toList

/-- The digits of `n` without leading zeros. -/
def ofNat (n : Nat) : String :=
  String.ofList (Nat.toDigits 16 n)

theorem digitValue?_digit {n : Nat} (h : n < 16) : digitValue? (digit n) = some n := by
  have : ∀ k : Fin 16, digitValue? (digit k.val) = some k.val := by decide
  exact this ⟨n, h⟩

theorem digitValue?_upperDigit {n : Nat} (h : n < 16) : digitValue? (upperDigit n) = some n := by
  have : ∀ k : Fin 16, digitValue? (upperDigit k.val) = some k.val := by decide
  exact this ⟨n, h⟩

/-- The characters that are taken for a digit are the digits of either case. -/
theorem digitValue?_eq_some_iff {c : Char} {n : Nat} :
    digitValue? c = some n ↔ n < 16 ∧ (c = digit n ∨ c = upperDigit n) := by
  constructor
  · intro h
    have range : ∀ a b : Char, a ≤ c ∧ c ≤ b → a.toNat ≤ c.toNat ∧ c.toNat ≤ b.toNat :=
      fun _ _ bounds => ⟨UInt32.le_iff_toNat_le.1 bounds.1, UInt32.le_iff_toNat_le.1 bounds.2⟩
    have character : ∀ {code}, c.toNat = code → c = Char.ofNat code :=
      fun same => by rw [← same, Char.ofNat_toNat]
    unfold digitValue? at h
    split at h
    · have bounds : 0x30 ≤ c.toNat ∧ c.toNat ≤ 0x39 := range '0' '9' ‹_›
      have value := Option.some.inj h
      refine ⟨by omega, .inl (character ?_)⟩
      rw [if_pos (by omega)]
      omega
    split at h
    · have bounds : 0x61 ≤ c.toNat ∧ c.toNat ≤ 0x66 := range 'a' 'f' ‹_›
      have value := Option.some.inj h
      refine ⟨by omega, .inl (character ?_)⟩
      rw [if_neg (by omega)]
      omega
    split at h
    · have bounds : 0x41 ≤ c.toNat ∧ c.toNat ≤ 0x46 := range 'A' 'F' ‹_›
      have value := Option.some.inj h
      refine ⟨by omega, .inr (character ?_)⟩
      rw [if_neg (by omega)]
      omega
    · cases h
  · rintro ⟨small, rfl | rfl⟩
    · exact digitValue?_digit small
    · exact digitValue?_upperDigit small

theorem decode?_encode (bytes : Bytes) : decode? (encode bytes) = some bytes := by
  simp only [decode?, encode, String.toList_ofList]
  induction bytes with
  | nil => rfl
  | cons b bytes ih =>
    have hb := b.toNat_lt
    simp only [List.flatMap_cons, List.cons_append, List.nil_append, decodeChars?, ih,
      digitValue?_digit (show b.toNat / 16 < 16 by omega),
      digitValue?_digit (show b.toNat % 16 < 16 by omega)]
    show some (UInt8.ofNat (16 * (b.toNat / 16) + b.toNat % 16) :: bytes) = some (b :: bytes)
    rw [show 16 * (b.toNat / 16) + b.toNat % 16 = b.toNat by omega, UInt8.ofNat_toNat]

end SnapshotStore.Hex
