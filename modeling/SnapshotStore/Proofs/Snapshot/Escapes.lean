import SnapshotStore.Proofs.Snapshot.FileName

/-!
Which texts are read as encoded names. `Spells` is the grammar of percent-encoded text for a given
notion of escapes; the reader takes two digits, and a plus in the place of a leading zero. Main
statement: a text is read exactly if it spells the bytes of a name, and this name is what it is read
as (`reads_escaped`).
-/

namespace SnapshotStore.FileName

/-- Whether a character is the digit of a value, of either case. -/
def IsDigitOf (c : Char) (n : Nat) : Prop := c = Hex.digit n ∨ c = Hex.upperDigit n

/-- Whether two characters are the digits of a byte. -/
def AreDigitsOf (hi lo : Char) (b : UInt8) : Prop :=
  IsDigitOf hi (b.toNat / 16) ∧ IsDigitOf lo (b.toNat % 16)

/-- Whether two characters are taken for the digits of a byte; a plus is taken for a zero in the
first place. -/
def AreTakenFor (hi lo : Char) (b : UInt8) : Prop :=
  AreDigitsOf hi lo b ∨ hi = '+' ∧ AreDigitsOf '0' lo b

/-- Whether characters spell bytes: a percent sign begins an escape for one byte, and every other
character stands for itself. -/
inductive Spells (IsEscape : Char → Char → UInt8 → Prop) : List Char → Bytes → Prop
  | nil : Spells IsEscape [] []
  | escape {hi lo : Char} {b : UInt8} {s : List Char} {bytes : Bytes} (byte : IsEscape hi lo b)
    (rest : Spells IsEscape s bytes) : Spells IsEscape ('%' :: hi :: lo :: s) (b :: bytes)
  | plain {c : Char} {s : List Char} {bytes : Bytes} (other : c ≠ '%')
    (rest : Spells IsEscape s bytes) : Spells IsEscape (c :: s) (String.utf8EncodeChar c ++ bytes)

variable {hi lo : Char} {b : UInt8} {s : List Char} {bytes : Bytes}

/-! ## Escapes -/

theorem areDigitsOf_iff :
    AreDigitsOf hi lo b ↔
      Hex.digitValue? hi = some (b.toNat / 16) ∧ Hex.digitValue? lo = some (b.toNat % 16) := by
  have small := b.toNat_lt
  rw [Hex.digitValue?_eq_some_iff, Hex.digitValue?_eq_some_iff,
    and_iff_right (show b.toNat / 16 < 16 by omega), and_iff_right (show b.toNat % 16 < 16 by omega)]
  rfl

theorem escapeValue?_eq_some_iff : escapeValue? [hi, lo] = some b.toNat ↔ AreTakenFor hi lo b := by
  rw [AreTakenFor, areDigitsOf_iff, areDigitsOf_iff]
  by_cases plus : hi = '+'
  · subst plus
    have value : escapeValue? ['+', lo] = Hex.digitValue? lo := rfl
    have noDigit : Hex.digitValue? '+' = none := by decide
    have zero : Hex.digitValue? '0' = some 0 := by decide
    rw [value, noDigit, zero]
    constructor
    · intro low
      have small := (Hex.digitValue?_eq_some_iff.1 low).1
      refine .inr ⟨rfl, congrArg some (by omega), ?_⟩
      rw [low, Nat.mod_eq_of_lt small]
    · rintro (⟨⟨⟩, -⟩ | ⟨-, high, low⟩)
      have leading := Option.some.inj high
      rw [low, Nat.mod_eq_of_lt (by omega)]
  · rw [escapeValue?_pair plus, or_iff_left fun h => plus h.1]
    constructor
    · intro value
      obtain ⟨m, high, value⟩ := Option.bind_eq_some_iff.1 value
      obtain ⟨k, low, value⟩ := Option.bind_eq_some_iff.1 value
      have small := (Hex.digitValue?_eq_some_iff.1 low).1
      have sum := Option.some.inj value
      rw [high, low]
      exact ⟨congrArg some (by omega), congrArg some (by omega)⟩
    · rintro ⟨high, low⟩
      rw [high, low]
      exact congrArg some (Nat.div_add_mod b.toNat 16)

theorem escapeValue?_lt {n : Nat} (h : escapeValue? [hi, lo] = some n) : n < 256 := by
  by_cases plus : hi = '+'
  · subst plus
    exact Nat.lt_trans (Hex.digitValue?_eq_some_iff.1 h).1 (by decide)
  · rw [escapeValue?_pair plus] at h
    obtain ⟨m, high, h⟩ := Option.bind_eq_some_iff.1 h
    obtain ⟨k, low, h⟩ := Option.bind_eq_some_iff.1 h
    have := (Hex.digitValue?_eq_some_iff.1 high).1
    have := (Hex.digitValue?_eq_some_iff.1 low).1
    have := Option.some.inj h
    omega

/-- Characters that are taken for an escape are two, those of a byte. -/
theorem exists_escape {taken rest : List Char} {n : Nat} (h : escapeChars? s = some (taken, rest))
    (value : escapeValue? taken = some n) :
    ∃ hi lo b, s = hi :: lo :: rest ∧ n = UInt8.toNat b ∧ AreTakenFor hi lo b := by
  have lone : ∀ c, escapeValue? [c] = none := fun c => by simp [escapeValue?]
  have pair : ∃ hi lo, s = hi :: lo :: rest ∧ taken = [hi, lo] := by
    match s with
    | [] => cases h
    | [c] =>
      rw [escapeChars?] at h
      split at h
      · cases h
        rw [lone] at value
        cases value
      · cases h
    | c :: d :: s =>
      rw [escapeChars?] at h
      split at h
      · cases h
        rw [lone] at value
        cases value
      split at h
      · cases h
        exact ⟨c, d, rfl, rfl⟩
      · cases h
  obtain ⟨hi, lo, rfl, rfl⟩ := pair
  have byte : n = (UInt8.ofNat n).toNat := by
    rw [UInt8.toNat_ofNat', Nat.mod_eq_of_lt (escapeValue?_lt value)]
  exact ⟨hi, lo, .ofNat n, rfl, byte, escapeValue?_eq_some_iff.1 (byte ▸ value)⟩

theorem AreTakenFor.single (h : AreTakenFor hi lo b) : hi.utf8Size = 1 ∧ lo.utf8Size = 1 := by
  rcases h with digits | ⟨rfl, digits⟩
  · obtain ⟨high, low⟩ := areDigitsOf_iff.1 digits
    exact ⟨(single_of_digitValue? high).1, (single_of_digitValue? low).1⟩
  · exact ⟨by decide, (single_of_digitValue? (areDigitsOf_iff.1 digits).2).1⟩

/-! ## Names -/

theorem spells_of_decodeBytes {whole : String} (h : decodeBytes whole s = .ok bytes) :
    Spells AreTakenFor s bytes := by
  fun_induction decodeBytes whole s generalizing bytes with
  | case1 =>
    cases h
    exact .nil
  | case2 | case3 => cases h
  | case4 s taken rest found n value ih =>
    obtain ⟨hi, lo, b, rfl, rfl, byte⟩ := exists_escape found value
    cases read : decodeBytes whole rest with
    | error fault =>
      rw [read] at h
      cases h
    | ok bytes =>
      rw [read] at h
      cases h
      rw [UInt8.ofNat_toNat]
      exact .escape byte (ih read)
  | case5 c s other ih =>
    cases read : decodeBytes whole s with
    | error fault =>
      rw [read] at h
      cases h
    | ok bytes =>
      rw [read] at h
      cases h
      exact .plain other (ih read)

theorem Spells.decodeBytes (whole : String) (h : Spells AreTakenFor s bytes) :
    decodeBytes whole s = .ok bytes := by
  induction h with
  | nil => rw [FileName.decodeBytes]
  | escape byte _ ih =>
    obtain ⟨highSize, lowSize⟩ := byte.single
    rw [decodeBytes_escape whole highSize lowSize (escapeValue?_eq_some_iff.2 byte), ih,
      UInt8.ofNat_toNat]
    rfl
  | plain other _ ih =>
    rw [FileName.decodeBytes, if_neg other, ih]
    rfl

/-- A text is read as a name exactly if it spells the bytes of this name. -/
theorem decode_eq_ok_iff {encoded name : String} :
    decode encoded = .ok name ↔ Spells AreTakenFor encoded.toList (Utf8.encode name) := by
  constructor
  · intro h
    cases read : FileName.decodeBytes encoded encoded.toList with
    | error fault =>
      rw [decode_of_error read] at h
      cases h
    | ok bytes =>
      rw [decode_of_ok read] at h
      cases text : Utf8.decode bytes with
      | error fault =>
        rw [text] at h
        cases h
      | ok name =>
        rw [text] at h
        cases h
        rw [← Utf8.decode_eq_ok_iff.1 text]
        exact spells_of_decodeBytes read
  · intro spells
    rw [decode_of_ok (spells.decodeBytes encoded), Utf8.decode_encode]
    rfl

/-- What is refused is refused as a fault of the encoding. -/
theorem decode_cases (encoded : String) :
    (∃ name, decode encoded = .ok name) ∨ ∃ fault, decode encoded = .error (.codec fault) := by
  cases read : FileName.decodeBytes encoded encoded.toList with
  | error fault => exact .inr ⟨fault, decode_of_error read⟩
  | ok bytes =>
    rw [decode_of_ok read]
    cases Utf8.decode bytes with
    | error fault => exact .inr ⟨_, rfl⟩
    | ok name => exact .inl ⟨name, rfl⟩

theorem Spells.mono {P Q : Char → Char → UInt8 → Prop} (h : Spells P s bytes)
    (le : ∀ hi ∈ s, ∀ lo b, P hi lo b → Q hi lo b) : Spells Q s bytes := by
  induction h with
  | nil => exact .nil
  | @escape hi lo b s bytes byte _ ih =>
    have later : s ⊆ '%' :: hi :: lo :: s := List.subset_append_right ['%', hi, lo] s
    exact .escape (le hi (by simp) lo b byte) (ih fun c mem => le c (later mem))
  | plain other _ ih => exact .plain other (ih fun c mem => le c (List.mem_cons_of_mem _ mem))

/-- Where there is no plus, escapes are those of two digits. -/
theorem spells_congr (noPlus : '+' ∉ s) :
    Spells AreTakenFor s bytes ↔ Spells AreDigitsOf s bytes := by
  refine ⟨fun h => h.mono ?_, fun h => h.mono fun _ _ _ _ => .inl⟩
  rintro hi mem lo b (digits | ⟨rfl, -⟩)
  · exact digits
  · exact absurd mem noPlus

/-- A text is read as an encoded name exactly if each percent sign that is in no earlier escape begins
an escape, and the bytes that are spelled are those of a text, which is the name; any other text is
refused as a fault of the encoding. An escape has two digits of either case, and a plus is taken for
a zero in the first place. -/
theorem reads_escaped (encoded : String) :
    (∀ name, decode encoded = .ok name ↔ Spells AreTakenFor encoded.toList (Utf8.encode name)) ∧
      ((∃ name, decode encoded = .ok name) ∨ ∃ fault, decode encoded = .error (.codec fault)) ∧
      ('+' ∉ encoded.toList →
        ∀ name, decode encoded = .ok name ↔ Spells AreDigitsOf encoded.toList (Utf8.encode name)) :=
  ⟨fun _ => decode_eq_ok_iff, decode_cases encoded,
    fun noPlus _ => decode_eq_ok_iff.trans (spells_congr noPlus)⟩

/-- An escaped percent sign that is no sign of another escape, and a character of two bytes in digits
of both cases before one that stands for itself. -/
theorem reads_escaped_both_cases :
    '+' ∉ "%2541%C3%a9é".toList ∧ decode "%2541%C3%a9é" = .ok "%41éé" := by
  have noPlus : '+' ∉ "%2541%C3%a9é".toList := by decide
  refine ⟨noPlus, ((reads_escaped "%2541%C3%a9é").2.2 noPlus "%41éé").2 ?_⟩
  have bytes : Utf8.encode "%41éé" = [0x25, 0x34, 0x31, 0xC3, 0xA9, 0xC3, 0xA9] := by decide
  rw [bytes]
  refine .escape (b := 0x25) ⟨.inl rfl, .inl rfl⟩ (.plain (by decide) (.plain (by decide) ?_))
  refine .escape (b := 0xC3) ⟨.inr rfl, .inl rfl⟩ (.escape (b := 0xA9) ⟨.inl rfl, .inl rfl⟩ ?_)
  exact .plain (by decide) .nil

/-- A plus and a digit are read as an escape, though they are no two digits. -/
theorem plus_taken_for_digit :
    decode "%+5" = .ok "\x05" ∧ ∀ bytes, ¬Spells AreDigitsOf "%+5".toList bytes := by
  refine ⟨decode_eq_ok_iff.2 (.escape (b := 5) (.inr ⟨rfl, .inl rfl, .inl rfl⟩) .nil), ?_⟩
  rw [show "%+5".toList = ['%', '+', '5'] from rfl]
  intro bytes spells
  cases spells with
  | escape byte rest =>
    have noDigit : Hex.digitValue? '+' = none := by decide
    have digit := (areDigitsOf_iff.1 byte).1
    rw [noDigit] at digit
    cases digit
  | plain other rest => exact other rfl

end SnapshotStore.FileName
