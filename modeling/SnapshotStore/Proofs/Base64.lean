import Mathlib.Tactic.Ring
import SnapshotStore.Bytes.Base64
import SnapshotStore.Proofs.Bytes

/-!
Base 64 by its rule (RFC 4648, section 4): the digits of a text, read as one number, are its bytes,
read as one number, with the zero bits that complete the last digit behind them (`Spells`). Main
statements: the reader accepts exactly what the writer produces (`decode?_eq_some_iff`), and that is
exactly what the rule allows (`encode_eq_iff`).
-/

namespace SnapshotStore.Base64

/-! ## The reader takes nothing but what the writer produces -/

/-- A character with a value is the digit of this value. -/
theorem digit_of_value? {c : Char} {n : Nat} (h : value? c = some n) : n < 64 ∧ c = digit n := by
  have back : Char.ofNat c.toNat = c := Char.ofNat_toNat c
  unfold value? at h
  split_ifs at h with upper lower numeral plus slash
  · replace upper : 0x41 ≤ c.toNat ∧ c.toNat ≤ 0x5A := upper
    cases h
    refine ⟨by omega, ?_⟩
    rw [digit, if_pos (by omega), show 0x41 + (c.toNat - 0x41) = c.toNat by omega, back]
  · replace lower : 0x61 ≤ c.toNat ∧ c.toNat ≤ 0x7A := lower
    cases h
    refine ⟨by omega, ?_⟩
    rw [digit, if_neg (by omega), if_pos (by omega),
      show 0x61 + (c.toNat - 0x61 + 26 - 26) = c.toNat by omega, back]
  · replace numeral : 0x30 ≤ c.toNat ∧ c.toNat ≤ 0x39 := numeral
    cases h
    refine ⟨by omega, ?_⟩
    rw [digit, if_neg (by omega), if_neg (by omega), if_pos (by omega),
      show 0x30 + (c.toNat - 0x30 + 52 - 52) = c.toNat by omega, back]
  · cases h
    exact ⟨by decide, plus⟩
  · cases h
    exact ⟨by decide, slash⟩

/-- The first byte of a group holds its first digit and the upper bits of the second one. -/
theorem toNat_first {p q : Nat} (hp : p < 64) (hq : q < 64) :
    (UInt8.ofNat (p * 4 + q / 16)).toNat = p * 4 + q / 16 := by
  rw [UInt8.toNat_ofNat']
  omega

theorem toNat_second {q r : Nat} (hr : r < 64) :
    (UInt8.ofNat (q % 16 * 16 + r / 4)).toNat = q % 16 * 16 + r / 4 := by
  rw [UInt8.toNat_ofNat']
  omega

theorem toNat_third {r s : Nat} (hs : s < 64) :
    (UInt8.ofNat (r % 4 * 64 + s)).toNat = r % 4 * 64 + s := by
  rw [UInt8.toNat_ofNat']
  omega

theorem eq_encodeChars_of_decodeChars? {text : List Char} {bytes : Bytes}
    (h : decodeChars? text = some bytes) : text = encodeChars bytes := by
  fun_induction decodeChars? text generalizing bytes with
  | case1 =>
    cases h
    rfl
  | case2 p q =>
    simp only [Option.bind_eq_bind, Option.bind_eq_some_iff] at h
    obtain ⟨m, hm, n, hn, h⟩ := h
    obtain ⟨m_lt, rfl⟩ := digit_of_value? hm
    obtain ⟨n_lt, rfl⟩ := digit_of_value? hn
    split_ifs at h with zero
    cases h
    rw [encodeChars, toNat_first m_lt n_lt, show (m * 4 + n / 16) / 4 = m by omega,
      show (m * 4 + n / 16) % 4 * 16 = n by omega]
  | case3 p q r =>
    simp only [Option.bind_eq_bind, Option.bind_eq_some_iff] at h
    obtain ⟨m, hm, n, hn, o, ho, h⟩ := h
    obtain ⟨m_lt, rfl⟩ := digit_of_value? hm
    obtain ⟨n_lt, rfl⟩ := digit_of_value? hn
    obtain ⟨o_lt, rfl⟩ := digit_of_value? ho
    split_ifs at h with zero
    cases h
    rw [encodeChars, toNat_first m_lt n_lt, toNat_second o_lt,
      show (m * 4 + n / 16) / 4 = m by omega,
      show (m * 4 + n / 16) % 4 * 16 + (n % 16 * 16 + o / 4) / 16 = n by omega,
      show (n % 16 * 16 + o / 4) % 16 * 4 = o by omega]
  | case4 p q r s rest _ _ ih =>
    simp only [Option.bind_eq_bind, Option.bind_eq_some_iff] at h
    obtain ⟨m, hm, n, hn, o, ho, k, hk, tail, decoded, h⟩ := h
    obtain ⟨m_lt, rfl⟩ := digit_of_value? hm
    obtain ⟨n_lt, rfl⟩ := digit_of_value? hn
    obtain ⟨o_lt, rfl⟩ := digit_of_value? ho
    obtain ⟨k_lt, rfl⟩ := digit_of_value? hk
    cases h
    rw [encodeChars, toNat_first m_lt n_lt, toNat_second o_lt, toNat_third k_lt, ← ih decoded,
      show (m * 4 + n / 16) / 4 = m by omega,
      show (m * 4 + n / 16) % 4 * 16 + (n % 16 * 16 + o / 4) / 16 = n by omega,
      show (n % 16 * 16 + o / 4) % 16 * 4 + (o % 4 * 64 + k) / 64 = o by omega,
      show (o % 4 * 64 + k) % 64 = k by omega]
  | case5 => cases h

/-- The reader accepts exactly what the writer produces. -/
theorem decode?_eq_some_iff {text : String} {bytes : Bytes} :
    decode? text = some bytes ↔ text = encode bytes := by
  constructor
  · intro h
    rw [encode, ← eq_encodeChars_of_decodeChars? h]
    exact String.ofList_toList.symm
  · rintro rfl
    exact decode?_encode bytes

/-! ## What the writer produces, by the rule -/

/-- The number whose base-64 digits are given, highest first. -/
def number (digits : List Nat) : Nat := digits.foldl (fun acc d => acc * 64 + d) 0

@[simp] theorem number_nil : number [] = 0 := rfl

@[simp] theorem number_append_singleton (digits : List Nat) (d : Nat) :
    number (digits ++ [d]) = number digits * 64 + d := by
  simp [number]

theorem number_append (digits more : List Nat) :
    number (digits ++ more) = number digits * 64 ^ more.length + number more := by
  induction more using List.reverseRecOn with
  | nil => simp
  | append_singleton more d ih =>
    rw [← List.append_assoc, number_append_singleton, ih, number_append_singleton,
      List.length_append, List.length_singleton, Nat.pow_succ]
    ring

/-- Digits of one count that write the same number are the same. -/
theorem number_injective {digits other : List Nat} (small : ∀ d ∈ digits, d < 64)
    (small' : ∀ d ∈ other, d < 64) (length : digits.length = other.length)
    (same : number digits = number other) : digits = other := by
  induction digits using List.reverseRecOn generalizing other with
  | nil => exact (List.eq_nil_of_length_eq_zero length.symm).symm
  | append_singleton digits d ih =>
    obtain rfl | ⟨other, e, rfl⟩ := List.eq_nil_or_concat other
    · simp at length
    rw [List.concat_eq_append] at small' length same ⊢
    have hd := small d (by simp)
    have he := small' e (by simp)
    rw [number_append_singleton, number_append_singleton] at same
    rw [ih (fun d hd => small d (List.mem_append_left _ hd))
      (fun d hd => small' d (List.mem_append_left _ hd)) (by simpa using length) (by omega),
      show d = e by omega]

/-- When digits and a filling are the canonical ones of bytes: groups of four stand for groups of
three bytes, the last one is filled up, and the digits write the bits of the bytes and zeros behind
them. -/
structure Spells (digits : List Nat) (fill : Nat) (bytes : Bytes) : Prop where
  small : ∀ d ∈ digits, d < 64
  least : fill < 3
  groups : 3 * (digits.length + fill) = 4 * (bytes.length + fill)
  value : number digits = Bytes.toNat bytes * 4 ^ fill

/-- The text of digits and a filling. -/
def spell (digits : List Nat) (fill : Nat) : List Char :=
  digits.map digit ++ List.replicate fill '='

/-- Bytes have one canonical text. -/
theorem Spells.unique {digits other : List Nat} {fill fill' : Nat} {bytes : Bytes}
    (h : Spells digits fill bytes) (h' : Spells other fill' bytes) :
    digits = other ∧ fill = fill' := by
  have groups := h.groups
  have groups' := h'.groups
  have least := h.least
  have least' := h'.least
  obtain rfl : fill = fill' := by omega
  exact ⟨number_injective h.small h'.small (by omega) (h.value.trans h'.value.symm), rfl⟩

/-- A group of three bytes in front of a text. -/
theorem Spells.group {digits : List Nat} {fill : Nat} {rest : Bytes} (h : Spells digits fill rest)
    (a b c : UInt8) :
    Spells ([a.toNat / 4, a.toNat % 4 * 16 + b.toNat / 16, b.toNat % 16 * 4 + c.toNat / 64,
      c.toNat % 64] ++ digits) fill (a :: b :: c :: rest) := by
  have ha := a.toNat_lt
  have hb := b.toNat_lt
  have hc := c.toNat_lt
  have groups := h.groups
  -- The digits behind the group have as many bits as the bytes behind it and the filling.
  have bits : 64 ^ digits.length = 256 ^ rest.length * 4 ^ fill := by
    rw [show 64 = 2 ^ 6 by rfl, show 256 = 2 ^ 8 by rfl, show 4 = 2 ^ 2 by rfl, ← Nat.pow_mul,
      ← Nat.pow_mul, ← Nat.pow_mul, ← Nat.pow_add]
    congr 1
    omega
  have front : number [a.toNat / 4, a.toNat % 4 * 16 + b.toNat / 16,
      b.toNat % 16 * 4 + c.toNat / 64, c.toNat % 64] =
        (a.toNat * 256 + b.toNat) * 256 + c.toNat := by
    simp only [number, List.foldl_cons, List.foldl_nil]
    omega
  refine ⟨?_, h.least, ?_, ?_⟩
  · intro d hd
    simp only [List.mem_append, List.mem_cons, List.not_mem_nil, or_false] at hd
    rcases hd with (rfl | rfl | rfl | rfl) | hd
    · omega
    · omega
    · omega
    · omega
    · exact h.small d hd
  · simp only [List.length_append, List.length_cons, List.length_nil]
    omega
  · rw [number_append, front, h.value, bits, Bytes.toNat_cons, Bytes.toNat_cons, Bytes.toNat_cons]
    simp only [List.length_cons, Nat.pow_succ]
    ring

/-- The writer spells bytes by the rule. -/
theorem spells_encodeChars (bytes : Bytes) :
    ∃ digits fill, Spells digits fill bytes ∧ encodeChars bytes = spell digits fill := by
  fun_induction encodeChars bytes with
  | case1 => exact ⟨[], 0, ⟨by simp, by decide, rfl, rfl⟩, rfl⟩
  | case2 a =>
    have ha := a.toNat_lt
    refine ⟨[a.toNat / 4, a.toNat % 4 * 16], 2, ⟨?_, by decide, rfl, ?_⟩, rfl⟩
    · simp only [List.mem_cons, List.not_mem_nil, or_false, forall_eq_or_imp, forall_eq]
      omega
    · simp only [number, Bytes.toNat, List.foldl_cons, List.foldl_nil]
      omega
  | case3 a b =>
    have ha := a.toNat_lt
    have hb := b.toNat_lt
    refine ⟨[a.toNat / 4, a.toNat % 4 * 16 + b.toNat / 16, b.toNat % 16 * 4], 1,
      ⟨?_, by decide, rfl, ?_⟩, rfl⟩
    · simp only [List.mem_cons, List.not_mem_nil, or_false, forall_eq_or_imp, forall_eq]
      omega
    · simp only [number, Bytes.toNat, List.foldl_cons, List.foldl_nil]
      omega
  | case4 a b c rest ih =>
    obtain ⟨digits, fill, spells, same⟩ := ih
    exact ⟨_, fill, spells.group a b c, by rw [same]; rfl⟩

/-- The writer produces nothing but digits and the filling. -/
theorem of_mem_encodeChars {bytes : Bytes} {c : Char} (h : c ∈ encodeChars bytes) :
    value? c ≠ none ∨ c = '=' := by
  obtain ⟨digits, fill, spells, same⟩ := spells_encodeChars bytes
  rw [same, spell, List.mem_append, List.mem_map] at h
  rcases h with ⟨d, mem, rfl⟩ | filled
  · rw [value?_digit (spells.small d mem)]
    exact .inl (Option.some_ne_none d)
  · exact .inr (List.eq_of_mem_replicate filled)

/-- A text of less than forty characters has no room for 28 bytes. -/
theorem length_lt_of_encodeChars {bytes : Bytes} (h : (encodeChars bytes).length < 40) :
    bytes.length < 28 := by
  obtain ⟨digits, fill, spells, same⟩ := spells_encodeChars bytes
  have groups := spells.groups
  have length : (encodeChars bytes).length = digits.length + fill := by simp [same, spell]
  omega

/-- The text of bytes is the one that the rule allows. -/
theorem encode_eq_iff {bytes : Bytes} {text : String} :
    text = encode bytes ↔
      ∃ digits fill, Spells digits fill bytes ∧ text = String.ofList (spell digits fill) := by
  obtain ⟨digits, fill, spells, same⟩ := spells_encodeChars bytes
  rw [encode, same]
  constructor
  · rintro rfl
    exact ⟨digits, fill, spells, rfl⟩
  · rintro ⟨other, fill', spells', rfl⟩
    obtain ⟨rfl, rfl⟩ := spells.unique spells'
    rfl

end SnapshotStore.Base64
