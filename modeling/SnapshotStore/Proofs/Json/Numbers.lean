import Mathlib.Data.List.Basic
import SnapshotStore.Proofs.Json.Reading

/-!
Numbers read back from their text. A number is written as one numeral (`Number.numeral`), which the
reader takes off the text where it ends (`spells_number`), and which means the number again if the
reader has room for it (`Number.number?_numeral`).
-/

namespace SnapshotStore

/-- The digits of a number, highest first. -/
def Numeral.digits (n : Nat) : List Nat := (Nat.toDigits 10 n).map fun c => c.toNat - '0'.toNat

/-- The numeral by which a number is written. -/
def Number.numeral : Number → Numeral
  | .whole n => ⟨decide (n < 0), Numeral.digits n.natAbs, none, none⟩
  | .decimal mantissa exponent =>
    ⟨decide (mantissa < 0), Numeral.digits mantissa.natAbs, none, some exponent⟩

/-- Whether a reader has room for a number. -/
def Number.Fits : Number → Prop
  | .whole n => -9223372036854775808 ≤ n ∧ n ≤ 18446744073709551615
  | .decimal mantissa exponent => (Number.decimal mantissa exponent).numeral.isTooLarge = false

instance Number.decidableFits (n : Number) : Decidable n.Fits :=
  match n with
  | .whole n =>
    inferInstanceAs (Decidable (-9223372036854775808 ≤ n ∧ n ≤ 18446744073709551615))
  | .decimal mantissa exponent =>
    inferInstanceAs (Decidable ((Number.decimal mantissa exponent).numeral.isTooLarge = false))

/-! ## Meaning -/

theorem Numeral.ofDigits_digits (n : Nat) : ofDigits (digits n) = n := by
  have value : ofDigits (digits n) = Nat.ofDigitChars 10 (Nat.toDigits 10 n) 0 := by
    rw [ofDigits, digits, List.foldl_map, Nat.ofDigitChars_eq_foldl]
    simp only [Nat.mul_comm 10]
  rw [value, Nat.ofDigitChars_ten_toDigits]

theorem Numeral.signed_natAbs (n : Int) :
    (if decide (n < 0) = true then -(n.natAbs : Int) else n.natAbs) = n := by
  by_cases h : n < 0
  · rw [decide_eq_true h, if_pos rfl]
    omega
  · rw [decide_eq_false h, if_neg Bool.false_ne_true]
    omega

theorem Number.whole?_numeral (n : Int) : (whole n).numeral.whole? = some n := by
  have spelled : ¬(decide (n < 0) = true ∧ n.natAbs = 0) := by
    rw [decide_eq_true_eq]
    omega
  simp only [Number.numeral, Numeral.whole?, Numeral.ofDigits_digits, Option.isSome_none,
    Bool.false_eq_true, false_or, if_neg spelled, Numeral.signed_natAbs]

theorem Number.number?_numeral {n : Number} (h : n.Fits) : n.numeral.number? = some n := by
  cases n with
  | whole n =>
    rw [Numeral.number?, whole?_numeral]
    exact if_pos h
  | decimal mantissa exponent =>
    have decimal : (Number.decimal mantissa exponent).numeral.whole? = none := by
      simp [Number.numeral, Numeral.whole?]
    have small : ¬(Number.decimal mantissa exponent).numeral.isTooLarge = true := by
      rw [show _ = false from h]
      exact Bool.false_ne_true
    rw [Numeral.number?, decimal]
    simp only [Numeral.number?.decimal, if_neg small]
    simp only [Number.numeral, Option.getD_none, List.append_nil, Numeral.ofDigits_digits,
      Numeral.signed_natAbs, Option.getD_some, List.length_nil]
    rw [show exponent - ((0 : Nat) : Int) = exponent from Int.sub_zero exponent]

namespace Spelling

/-! ## Digits -/

/-- The digits of a number as text. -/
def digitBytes (n : Nat) : Bytes := bytesOf (Nat.toDigits 10 n)

theorem toNat_range_of_isDigit {c : Char} (h : c.isDigit = true) : 48 ≤ c.toNat ∧ c.toNat ≤ 57 := by
  simp only [Char.isDigit, Bool.and_eq_true, decide_eq_true_eq, UInt32.le_iff_toNat_le] at h
  exact h

theorem utf8EncodeChar_of_isDigit {c : Char} (h : c.isDigit = true) :
    String.utf8EncodeChar c = [UInt8.ofNat c.toNat] := by
  have high := (toNat_range_of_isDigit h).2
  rw [String.utf8EncodeChar, if_pos (show c.val.toNat ≤ 0x7f from Nat.le_trans high (by decide))]
  rfl

theorem digitBytes_eq (n : Nat) :
    digitBytes n = (Nat.toDigits 10 n).map fun c => UInt8.ofNat c.toNat := by
  have digits : ∀ c ∈ Nat.toDigits 10 n, c.isDigit = true :=
    fun _ => Nat.isDigit_of_mem_toDigits (by decide) (by decide)
  rw [digitBytes, bytesOf, List.map_eq_flatMap, List.flatMap_congr fun c hc =>
    utf8EncodeChar_of_isDigit (digits c hc)]

theorem isDigit_of_mem_digitBytes {n : Nat} {b : UInt8} (h : b ∈ digitBytes n) :
    isDigit b = true := by
  rw [digitBytes_eq] at h
  obtain ⟨c, hc, rfl⟩ := List.mem_map.1 h
  have range := toNat_range_of_isDigit
    (Nat.isDigit_of_mem_toDigits (n := n) (by decide) (by decide) hc)
  simp only [isDigit, Bool.and_eq_true, decide_eq_true_eq, UInt8.le_iff_toNat_le,
    UInt8.toNat_ofNat']
  show 48 ≤ c.toNat % 256 ∧ c.toNat % 256 ≤ 57
  omega

theorem digitValues_digitBytes (n : Nat) : digitValues (digitBytes n) = Numeral.digits n := by
  rw [digitBytes_eq, digitValues, List.map_map, Numeral.digits]
  refine List.map_congr_left fun c hc => ?_
  have range := toNat_range_of_isDigit
    (Nat.isDigit_of_mem_toDigits (n := n) (by decide) (by decide) hc)
  show (UInt8.ofNat c.toNat).toNat - 48 = c.toNat - 48
  rw [UInt8.toNat_ofNat', Nat.mod_eq_of_lt (by omega)]

theorem digitBytes_ne_nil (n : Nat) : digitBytes n ≠ [] := by
  rw [digitBytes_eq]
  exact mt List.map_eq_nil_iff.1 Nat.toDigits_ne_nil

/-- No zero stands before other digits. -/
theorem exists_toDigits {n : Nat} (h : 0 < n) :
    ∃ c rest, Nat.toDigits 10 n = c :: rest ∧ c ≠ '0' := by
  induction n using Nat.strongRecOn with
  | ind n ih =>
    by_cases small : n < 10
    · exact ⟨_, [], Nat.toDigits_of_lt_base small, by simpa using Nat.ne_of_gt h⟩
    · obtain ⟨c, rest, eq, other⟩ := ih (n / 10) (by omega) (by omega)
      refine ⟨c, rest ++ [Nat.digitChar (n % 10)], ?_, other⟩
      rw [Nat.toDigits_of_base_le (by decide) (Nat.not_lt.1 small), eq]
      rfl

theorem digitBytes_plain (n : Nat) :
    ¬((digitBytes n).isEmpty = true ∨
      (digitBytes n).head? = some 0x30 ∧ 1 < (digitBytes n).length) := by
  rintro (empty | ⟨zero, long⟩)
  · exact digitBytes_ne_nil n (List.isEmpty_iff.1 empty)
  · rcases Nat.eq_zero_or_pos n with rfl | pos
    · exact absurd long (by decide)
    · obtain ⟨c, rest, eq, other⟩ := exists_toDigits pos
      have range := toNat_range_of_isDigit (Nat.isDigit_of_mem_toDigits (n := n) (by decide)
        (by decide) (eq ▸ List.mem_cons_self))
      rw [digitBytes_eq, eq, List.map_cons, List.head?_cons] at zero
      have value := congrArg UInt8.toNat (Option.some.inj zero)
      rw [UInt8.toNat_ofNat', Nat.mod_eq_of_lt (by omega)] at value
      exact other (Char.toNat_inj.1 value)

/-! ## Taking numerals off -/

/-- Whether an input does not begin with a digit. -/
def EndsDigits (s : Bytes) : Prop := ∀ b, s.head? = some b → isDigit b = false

theorem Stops.endsDigits {s : Bytes} (h : Stops s) : EndsDigits s := fun b hb => (h b hb).1

theorem takeWhile_digitBytes (n : Nat) {rest : Bytes} (h : EndsDigits rest) :
    (digitBytes n ++ rest).takeWhile isDigit = digitBytes n ∧
      (digitBytes n ++ rest).dropWhile isDigit = rest := by
  have all : ∀ b ∈ digitBytes n, isDigit b = true := fun _ => isDigit_of_mem_digitBytes
  rw [List.takeWhile_append_of_pos all, List.dropWhile_append_of_pos all]
  cases rest with
  | nil => exact ⟨List.append_nil _, rfl⟩
  | cons b rest =>
    have other := h b rfl
    rw [List.takeWhile_cons_of_neg (by simp [other]), List.dropWhile_cons_of_neg (by simp [other])]
    exact ⟨List.append_nil _, rfl⟩

theorem Stops.readFraction {s : Bytes} (h : Stops s) : readFraction s = some (none, s) := by
  cases s with
  | nil => rfl
  | cons b s => rw [Spelling.readFraction, if_neg (h b rfl).2.1]

theorem Stops.readExponent {s : Bytes} (h : Stops s) : readExponent s = some (none, s) := by
  cases s with
  | nil => rfl
  | cons b s => rw [Spelling.readExponent.eq_def]; exact if_neg (not_or.2 (h b rfl).2.2)

/-- A whole number as text: a minus if it is negative, and its digits. -/
theorem bytesOf_toString (n : Int) :
    bytesOf (toString n).toList = (if n < 0 then [0x2D] else []) ++ digitBytes n.natAbs := by
  rw [Int.toString_eq_repr, Int.repr_eq_if]
  by_cases h : n < 0
  · rw [if_neg (Int.not_le.2 h), if_pos h, String.toList_append, Nat.toList_repr,
      show (-n).toNat = n.natAbs by omega]
    rfl
  · rw [if_pos (Int.not_lt.1 h), if_neg h, Nat.toList_repr, show n.toNat = n.natAbs by omega]
    rfl

theorem ne_of_isDigit {b c : UInt8} (h : isDigit b = true) (other : isDigit c = false) : b ≠ c := by
  rintro rfl
  rw [h] at other
  cases other

theorem exists_digitBytes (n : Nat) : ∃ b rest, digitBytes n = b :: rest ∧ isDigit b = true := by
  cases h : digitBytes n with
  | nil => exact absurd h (digitBytes_ne_nil n)
  | cons b rest => exact ⟨b, rest, rfl, isDigit_of_mem_digitBytes (h ▸ List.mem_cons_self)⟩

/-- The text of a whole number begins with a minus or with a digit. -/
theorem toString_cases (n : Int) :
    (decide (n < 0) = true ∧ bytesOf (toString n).toList = 0x2D :: digitBytes n.natAbs) ∨
      ∃ b digits, decide (n < 0) = false ∧ isDigit b = true ∧ digitBytes n.natAbs = b :: digits ∧
        bytesOf (toString n).toList = b :: digits := by
  rw [bytesOf_toString]
  by_cases negative : n < 0
  · exact .inl ⟨decide_eq_true negative, by rw [if_pos negative]; rfl⟩
  · obtain ⟨b, digits, eq, digit⟩ := exists_digitBytes n.natAbs
    exact .inr ⟨b, digits, decide_eq_false negative, digit, eq, by rw [if_neg negative, eq]; rfl⟩

/-- The sign and the digits of a number are taken off. -/
theorem readNumeral_digits (n : Int) {rest : Bytes} (h : EndsDigits rest) :
    readNumeral (bytesOf (toString n).toList ++ rest) =
      (readFraction rest).bind fun (fraction, s) =>
        (readExponent s).bind fun (exponent, s) =>
          some (⟨decide (n < 0), Numeral.digits n.natAbs, fraction.map digitValues, exponent⟩, s) := by
  obtain ⟨taken, dropped⟩ := takeWhile_digitBytes n.natAbs h
  have plain := digitBytes_plain n.natAbs
  have values := digitValues_digitBytes n.natAbs
  rw [readNumeral.eq_def]
  rcases toString_cases n with ⟨sign, text⟩ | ⟨b, digits, sign, digit, eq, text⟩
  · rw [text, sign]
    simp only [List.cons_append, if_true, taken, dropped, if_neg plain, values]
    rfl
  · rw [eq] at taken dropped plain values
    rw [text, sign]
    have unsigned : ¬b = 0x2D := ne_of_isDigit digit (by decide)
    simp only [List.cons_append, if_neg unsigned] at taken dropped ⊢
    simp only [taken, dropped, if_neg plain, values]
    rfl

theorem readExponent_digits (n : Int) {rest : Bytes} (h : EndsDigits rest) :
    readExponent (0x65 :: (bytesOf (toString n).toList ++ rest)) = some (some n, rest) := by
  obtain ⟨taken, dropped⟩ := takeWhile_digitBytes n.natAbs h
  have some_digit : ¬(digitBytes n.natAbs).isEmpty = true :=
    mt List.isEmpty_iff.1 (digitBytes_ne_nil _)
  have value : (Numeral.ofDigits (digitValues (digitBytes n.natAbs)) : Int) = n.natAbs := by
    rw [digitValues_digitBytes, Numeral.ofDigits_digits]
  have signed := Numeral.signed_natAbs n
  rw [readExponent.eq_def]
  rcases toString_cases n with ⟨sign, text⟩ | ⟨b, digits, sign, digit, eq, text⟩
  · rw [sign] at signed
    rw [text]
    simp only [List.cons_append, true_or, if_true, taken, dropped, if_neg some_digit, value] at signed ⊢
    rw [signed]
  · rw [sign] at signed
    rw [eq] at taken dropped some_digit value
    have unsigned : ¬b = 0x2D ∧ ¬b = 0x2B :=
      ⟨ne_of_isDigit digit (by decide), ne_of_isDigit digit (by decide)⟩
    rw [text]
    simp only [List.cons_append, true_or, if_true, if_neg unsigned.1, if_neg unsigned.2,
      if_neg Bool.false_ne_true] at taken dropped signed ⊢
    simp only [taken, dropped, if_neg some_digit, value, signed]

/-- A number is read up to its end. -/
theorem readNumeral_number (n : Number) {rest : Bytes} (stops : Stops rest) :
    readNumeral (bytesOf (Json.Number.chars n) ++ rest) = some (n.numeral, rest) := by
  cases n with
  | whole n =>
    rw [Json.Number.chars, readNumeral_digits n stops.endsDigits, stops.readFraction]
    simp only [Option.bind_some, stops.readExponent]
    rfl
  | decimal mantissa exponent =>
    have mark : EndsDigits (0x65 :: (bytesOf (toString exponent).toList ++ rest)) := by
      rintro _ ⟨⟩
      decide
    have text : bytesOf (Json.Number.chars (.decimal mantissa exponent)) ++ rest =
        bytesOf (toString mantissa).toList ++
          0x65 :: (bytesOf (toString exponent).toList ++ rest) := by
      rw [Json.Number.chars, bytesOf_append, bytesOf_cons, List.append_assoc, List.append_assoc]
      rfl
    have fraction : readFraction (0x65 :: (bytesOf (toString exponent).toList ++ rest)) =
        some (none, 0x65 :: (bytesOf (toString exponent).toList ++ rest)) := rfl
    rw [text, readNumeral_digits mantissa mark, fraction]
    simp only [Option.bind_some, readExponent_digits exponent stops.endsDigits]
    rfl

theorem exists_chars (n : Number) :
    ∃ b rest, bytesOf (Json.Number.chars n) = b :: rest ∧ (b = 0x2D ∨ isDigit b = true) := by
  have whole : ∀ i : Int,
      ∃ b rest, bytesOf (toString i).toList = b :: rest ∧ (b = 0x2D ∨ isDigit b = true) := by
    intro i
    rcases toString_cases i with ⟨-, text⟩ | ⟨b, digits, -, digit, -, text⟩
    · exact ⟨_, _, text, .inl rfl⟩
    · exact ⟨_, _, text, .inr digit⟩
  cases n with
  | whole n => exact whole n
  | decimal mantissa exponent =>
    obtain ⟨b, rest, text, begins⟩ := whole mantissa
    refine ⟨b, rest ++ bytesOf ('e' :: (toString exponent).toList), ?_, begins⟩
    rw [Json.Number.chars, bytesOf_append, text]
    rfl

/-- What begins a number begins nothing else. -/
theorem readValue_numeral {b : UInt8} (h : b = 0x2D ∨ isDigit b = true) (fuel : Nat) (s : Bytes) :
    readValue (fuel + 1) (b :: s) =
      (readNumeral (b :: s)).map fun (n, rest) => (.number n, rest) := by
  have other : ∀ c : UInt8, c ≠ 0x2D → isDigit c = false → ¬b = c := by
    rintro c minus digit rfl
    rcases h with rfl | h
    · exact minus rfl
    · rw [h] at digit
      cases digit
  have solid : isBlank b = false := by
    simp only [isBlank, other 0x20 (by decide) (by decide), other 0x09 (by decide) (by decide),
      other 0x0A (by decide) (by decide), other 0x0D (by decide) (by decide), decide_false,
      Bool.or_false]
  rw [readValue, skip_cons solid]
  simp only [if_neg (other 0x6E (by decide) (by decide)), if_neg (other 0x74 (by decide) (by decide)),
    if_neg (other 0x66 (by decide) (by decide)), if_neg (other 0x22 (by decide) (by decide)),
    if_neg (other 0x5B (by decide) (by decide)), if_neg (other 0x7B (by decide) (by decide))]

theorem spells_number (n : Number) :
    Spells (bytesOf (Json.Number.chars n)) (.number n.numeral) := by
  intro fuel rest enough stops
  have read := readNumeral_number n stops
  obtain ⟨b, s, text, begins⟩ := exists_chars n
  rw [text, List.length_cons] at enough
  rw [text] at read ⊢
  cases fuel with
  | zero => omega
  | succ fuel =>
    rw [List.cons_append] at read ⊢
    rw [readValue_numeral begins, read]
    rfl

end Spelling

end SnapshotStore
