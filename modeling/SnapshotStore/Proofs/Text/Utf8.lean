import Mathlib.Tactic.SplitIfs
import SnapshotStore.Text.Utf8

/-!
Texts read back from their bytes. Main statements: the reader gives the text that was written
(`decode_encode`), and it gives a text for no other bytes (`decode_eq_ok_iff`). The lenient reader
gives a text without U+FFFD for no other bytes either (`decodeLossy_eq_iff`).
-/

namespace SnapshotStore.Utf8

theorem lead?_two {v : Nat} (low : 0x7f < v) (high : v ≤ 0x7ff) :
    lead? (UInt8.ofNat (v / 64 % 0x20 + 0xc0)) = some (0, 0x80, 0xBF) := by
  have all : ∀ k : Fin 32, 2 ≤ k.val → lead? (UInt8.ofNat (k.val + 0xc0)) = some (0, 0x80, 0xBF) := by
    decide
  exact all ⟨v / 64 % 32, Nat.mod_lt _ (by decide)⟩ (by show 2 ≤ v / 64 % 32; omega)

/-- The second byte of a character of three bytes is in the bounds of the first one. -/
theorem lead?_three {v : Nat} (low : 0x7ff < v) (high : v ≤ 0xffff)
    (valid : v < 0xd800 ∨ 0xdfff < v) :
    ∃ lo hi, lead? (UInt8.ofNat (v / 4096 % 0x10 + 0xe0)) = some (1, lo, hi) ∧
      lo.toNat ≤ v / 64 % 64 + 128 ∧ v / 64 % 64 + 128 ≤ hi.toNat := by
  have cases : v / 4096 % 16 = 0 ∨ v / 4096 % 16 = 13 ∨
      v / 4096 % 16 ∈ [1, 2, 3, 4, 5, 6, 7, 8, 9, 10, 11, 12, 14, 15] := by
    simp only [List.mem_cons, List.not_mem_nil]
    omega
  rcases cases with h | h | h
  · refine ⟨0xA0, 0xBF, by rw [h]; rfl, ?_, ?_⟩
    · show 160 ≤ _
      omega
    · show _ ≤ 191
      omega
  · refine ⟨0x80, 0x9F, by rw [h]; rfl, ?_, ?_⟩
    · show 128 ≤ _
      omega
    · show _ ≤ 159
      omega
  · refine ⟨0x80, 0xBF, ?_, ?_, ?_⟩
    · generalize v / 4096 % 16 = k at h ⊢
      revert k
      decide
    · show 128 ≤ _
      omega
    · show _ ≤ 191
      omega

/-- The second byte of a character of four bytes is in the bounds of the first one. -/
theorem lead?_four {v : Nat} (low : 0xffff < v) (high : v < 0x110000) :
    ∃ lo hi, lead? (UInt8.ofNat (v / 262144 % 8 + 0xf0)) = some (2, lo, hi) ∧
      lo.toNat ≤ v / 4096 % 64 + 128 ∧ v / 4096 % 64 + 128 ≤ hi.toNat := by
  have cases : v / 262144 % 8 = 0 ∨ v / 262144 % 8 = 4 ∨ v / 262144 % 8 ∈ [1, 2, 3] := by
    simp only [List.mem_cons, List.not_mem_nil]
    omega
  rcases cases with h | h | h
  · refine ⟨0x90, 0xBF, by rw [h]; rfl, ?_, ?_⟩
    · show 144 ≤ _
      omega
    · show _ ≤ 191
      omega
  · refine ⟨0x80, 0x8F, by rw [h]; rfl, ?_, ?_⟩
    · show 128 ≤ _
      omega
    · show _ ≤ 143
      omega
  · refine ⟨0x80, 0xBF, ?_, ?_, ?_⟩
    · generalize v / 262144 % 8 = k at h ⊢
      revert k
      decide
    · show 128 ≤ _
      omega
    · show _ ≤ 191
      omega

theorem not_ofNat_lt {n : Nat} (hl : 128 ≤ n) (hn : n < 256) : ¬UInt8.ofNat n < 0x80 := by
  rw [UInt8.lt_iff_toNat_lt, UInt8.toNat_ofNat', Nat.mod_eq_of_lt hn]
  exact Nat.not_lt.2 hl

/-- A second byte that is in its bounds does not break the character off. -/
theorem not_outside {n : Nat} {lo hi : UInt8} (hl : lo.toNat ≤ n % 64 + 128)
    (hh : n % 64 + 128 ≤ hi.toNat) :
    ¬(UInt8.ofNat (n % 64 + 128) < lo ∨ hi < UInt8.ofNat (n % 64 + 128)) := by
  rw [UInt8.lt_iff_toNat_lt, UInt8.lt_iff_toNat_lt, UInt8.toNat_ofNat']
  omega

theorem isContinuation_ofNat (n : Nat) : isContinuation (UInt8.ofNat (n % 64 + 128)) = true := by
  have : ∀ k : Fin 64, isContinuation (UInt8.ofNat (k.val + 128)) = true := by decide
  exact this ⟨n % 64, Nat.mod_lt _ (by decide)⟩

theorem payload_ofNat (n : Nat) : payload (UInt8.ofNat (n % 64 + 128)) = n % 64 := by
  rw [payload, UInt8.toNat_ofNat']
  omega

/-! ## Characters of several bytes -/

section Scan

variable {a b lo hi : UInt8} (high : ¬a < 0x80) (inside : ¬(b < lo ∨ hi < b)) (rest : Bytes)

include high inside

theorem scan_two (lead : lead? a = some (0, lo, hi)) :
    scan (a :: b :: rest) = .char (Char.ofNat (a.toNat % 32 * 64 + payload b)) :: scan rest := by
  rw [scan, if_neg high, lead]
  simp only [if_neg inside, if_true]

theorem scan_three {c : UInt8} (hc : isContinuation c = true)
    (lead : lead? a = some (1, lo, hi)) :
    scan (a :: b :: c :: rest) =
      .char (Char.ofNat ((a.toNat % 16 * 64 + payload b) * 64 + payload c)) :: scan rest := by
  rw [scan, if_neg high, lead]
  simp only [if_neg inside, hc, if_true, if_neg Nat.one_ne_zero, Bool.true_eq_false, if_false]

theorem scan_four {c d : UInt8} (hc : isContinuation c = true) (hd : isContinuation d = true)
    (lead : lead? a = some (2, lo, hi)) :
    scan (a :: b :: c :: d :: rest) =
      .char (Char.ofNat (((a.toNat % 8 * 64 + payload b) * 64 + payload c) * 64 + payload d)) ::
        scan rest := by
  have h0 : ¬(2 : Nat) = 0 := by decide
  have h1 : ¬(2 : Nat) = 1 := by decide
  rw [scan, if_neg high, lead]
  simp only [if_neg inside, hc, hd, if_neg h0, if_neg h1, Bool.true_eq_false, if_false]

end Scan

/-- The bytes of a character are cut off as this character. -/
theorem scan_utf8EncodeChar (c : Char) (rest : Bytes) :
    scan (String.utf8EncodeChar c ++ rest) = .char c :: scan rest := by
  have back : Char.ofNat c.val.toNat = c := Char.ofNat_toNat c
  have valid : c.val.toNat < 0xd800 ∨ (0xdfff < c.val.toNat ∧ c.val.toNat < 0x110000) := c.valid
  rw [String.utf8EncodeChar]
  generalize c.val.toNat = v at valid back
  by_cases h1 : v ≤ 0x7f
  · have hlt : UInt8.ofNat v < 0x80 := by
      rw [UInt8.lt_iff_toNat_lt, UInt8.toNat_ofNat']
      show v % 256 < 128
      omega
    rw [if_pos h1, List.singleton_append, scan, if_pos hlt, UInt8.toNat_ofNat',
      Nat.mod_eq_of_lt (by omega), back]
  rw [if_neg h1]
  by_cases h2 : v ≤ 0x7ff
  · have inside : ¬(UInt8.ofNat (v % 64 + 128) < 0x80 ∨ 0xBF < UInt8.ofNat (v % 64 + 128)) :=
      not_outside (show 128 ≤ v % 64 + 128 by omega) (show v % 64 + 128 ≤ 191 by omega)
    have value : (v / 64 % 32 + 192) % 256 % 32 * 64 + v % 64 = v := by omega
    rw [if_pos h2, List.cons_append, List.singleton_append,
      scan_two (not_ofNat_lt (by omega) (by omega)) inside rest (lead?_two (by omega) h2),
      payload_ofNat, UInt8.toNat_ofNat', value, back]
  rw [if_neg h2]
  by_cases h3 : v ≤ 0xffff
  · obtain ⟨lo, hi, lead, hl, hh⟩ := lead?_three (v := v) (by omega) h3 (by omega)
    have value : ((v / 4096 % 16 + 224) % 256 % 16 * 64 + v / 64 % 64) * 64 + v % 64 = v := by omega
    rw [if_pos h3, List.cons_append, List.cons_append, List.singleton_append,
      scan_three (not_ofNat_lt (by omega) (by omega)) (not_outside hl hh) rest
        (isContinuation_ofNat v) lead,
      payload_ofNat, payload_ofNat, UInt8.toNat_ofNat', value, back]
  rw [if_neg h3]
  obtain ⟨lo, hi, lead, hl, hh⟩ := lead?_four (v := v) (by omega) (by omega)
  have value : (((v / 262144 % 8 + 240) % 256 % 8 * 64 + v / 4096 % 64) * 64 + v / 64 % 64) * 64 +
      v % 64 = v := by omega
  rw [List.cons_append, List.cons_append, List.cons_append, List.singleton_append,
    scan_four (not_ofNat_lt (by omega) (by omega)) (not_outside hl hh) rest
      (isContinuation_ofNat (v / 64)) (isContinuation_ofNat v) lead,
    payload_ofNat, payload_ofNat, payload_ofNat, UInt8.toNat_ofNat', value, back]

theorem scan_encode (s : List Char) : scan (s.flatMap String.utf8EncodeChar) = s.map .char := by
  induction s with
  | nil => rfl
  | cons c s ih => rw [List.flatMap_cons, scan_utf8EncodeChar, ih, List.map_cons]

theorem collect_chars (index : Nat) (s : List Char) : collect index (s.map .char) = .ok s := by
  induction s generalizing index with
  | nil => rfl
  | cons c s ih =>
    rw [List.map_cons, collect, ih]
    rfl

/-- A text is read back from its bytes. -/
@[simp] theorem decode_encode (text : String) : decode (encode text) = .ok text := by
  rw [decode, encode, scan_encode, collect_chars]
  exact congrArg Except.ok (String.ofList_toList)

@[simp] theorem decode?_encode (text : String) : decode? (encode text) = some text := by
  rw [decode?, decode_encode]
  rfl

/-! ## Bytes that spell a text -/

/-- What a byte that begins a longer character says about itself and the byte behind it. -/
theorem bounds_of_lead? {a lo hi : UInt8} {more : Nat} (h : lead? a = some (more, lo, hi)) :
    0x80 ≤ lo.toNat ∧ hi.toNat ≤ 0xBF ∧
      ((more = 0 ∧ 0xC2 ≤ a.toNat ∧ a.toNat ≤ 0xDF) ∨
        (more = 1 ∧ 0xE0 ≤ a.toNat ∧ a.toNat ≤ 0xEF ∧ (a.toNat = 0xE0 → 0xA0 ≤ lo.toNat) ∧
          (a.toNat = 0xED → hi.toNat ≤ 0x9F)) ∨
        (more = 2 ∧ 0xF0 ≤ a.toNat ∧ a.toNat ≤ 0xF4 ∧ (a.toNat = 0xF0 → 0x90 ≤ lo.toNat) ∧
          (a.toNat = 0xF4 → hi.toNat ≤ 0x8F))) := by
  unfold lead? at h
  split_ifs at h <;>
    simp only [Option.some.injEq, Prod.mk.injEq, UInt8.lt_iff_toNat_lt, UInt8.le_iff_toNat_le,
      ← UInt8.toNat_inj, UInt8.reduceToNat] at * <;> omega

theorem bounds_of_isContinuation {b : UInt8} (h : isContinuation b = true) :
    0x80 ≤ b.toNat ∧ b.toNat ≤ 0xBF := by
  simpa only [isContinuation, Bool.and_eq_true, decide_eq_true_eq, UInt8.le_iff_toNat_le,
    UInt8.reduceToNat] using h

/-- The number of a character that is given by its number. -/
theorem toNat_ofNat {v : Nat} (valid : v < 0xd800 ∨ (0xdfff < v ∧ v < 0x110000)) :
    (Char.ofNat v).val.toNat = v := by
  rw [Char.ofNat, dif_pos valid]
  rfl

/-- A byte is the one of its number, however that is written. -/
theorem ofNat_of_toNat {n : Nat} {b : UInt8} (h : n = b.toNat) : UInt8.ofNat n = b := by
  rw [h, UInt8.ofNat_toNat]

section Character

variable {a b lo hi : UInt8} (inside : ¬(b < lo ∨ hi < b))

theorem utf8EncodeChar_one (low : a < 0x80) :
    String.utf8EncodeChar (Char.ofNat a.toNat) = [a] := by
  have low' : a.toNat < 0x80 := UInt8.lt_iff_toNat_lt.1 low
  rw [String.utf8EncodeChar, toNat_ofNat (by omega), if_pos (by omega), UInt8.ofNat_toNat]

include inside

theorem bounds_of_inside : lo.toNat ≤ b.toNat ∧ b.toNat ≤ hi.toNat := by
  rw [UInt8.lt_iff_toNat_lt, UInt8.lt_iff_toNat_lt] at inside
  omega

theorem utf8EncodeChar_two (lead : lead? a = some (0, lo, hi)) :
    String.utf8EncodeChar (Char.ofNat (a.toNat % 32 * 64 + payload b)) = [a, b] := by
  have second := bounds_of_inside inside
  have first := bounds_of_lead? lead
  rw [payload, String.utf8EncodeChar, toNat_ofNat (by omega), if_neg (by omega),
    if_pos (by omega), ofNat_of_toNat (b := a) (by omega), ofNat_of_toNat (b := b) (by omega)]

theorem utf8EncodeChar_three {c : UInt8} (hc : isContinuation c = true)
    (lead : lead? a = some (1, lo, hi)) :
    String.utf8EncodeChar (Char.ofNat ((a.toNat % 16 * 64 + payload b) * 64 + payload c)) =
      [a, b, c] := by
  have second := bounds_of_inside inside
  have first := bounds_of_lead? lead
  have third := bounds_of_isContinuation hc
  rw [payload, payload, String.utf8EncodeChar, toNat_ofNat (by omega), if_neg (by omega),
    if_neg (by omega), if_pos (by omega), ofNat_of_toNat (b := a) (by omega),
    ofNat_of_toNat (b := b) (by omega), ofNat_of_toNat (b := c) (by omega)]

theorem utf8EncodeChar_four {c d : UInt8} (hc : isContinuation c = true)
    (hd : isContinuation d = true) (lead : lead? a = some (2, lo, hi)) :
    String.utf8EncodeChar
        (Char.ofNat (((a.toNat % 8 * 64 + payload b) * 64 + payload c) * 64 + payload d)) =
      [a, b, c, d] := by
  have second := bounds_of_inside inside
  have first := bounds_of_lead? lead
  have third := bounds_of_isContinuation hc
  have fourth := bounds_of_isContinuation hd
  rw [payload, payload, payload, String.utf8EncodeChar, toNat_ofNat (by omega),
    if_neg (by omega), if_neg (by omega), if_neg (by omega), ofNat_of_toNat (b := a) (by omega),
    ofNat_of_toNat (b := b) (by omega), ofNat_of_toNat (b := c) (by omega),
    ofNat_of_toNat (b := d) (by omega)]

end Character

/-- Bytes whose segments are the characters of a text are the ones of this text. -/
theorem eq_of_scan_eq_chars {bytes : Bytes} {s : List Char} (h : scan bytes = s.map .char) :
    bytes = s.flatMap String.utf8EncodeChar := by
  fun_induction scan bytes generalizing s with
  | case1 =>
    cases s with
    | nil => rfl
    | cons c s => cases h
  | case2 a rest low ih =>
    obtain ⟨c, t, rfl, ⟨⟩, tail⟩ := List.map_eq_cons_iff.1 h.symm
    rw [List.flatMap_cons, utf8EncodeChar_one low, ← ih tail.symm, List.singleton_append]
  | case6 a _ lo hi b rest inside lead ih =>
    obtain ⟨c, t, rfl, ⟨⟩, tail⟩ := List.map_eq_cons_iff.1 h.symm
    rw [List.flatMap_cons, utf8EncodeChar_two inside lead, ← ih tail.symm]
    rfl
  | case9 a _ lo hi b inside c rest third lead _ ih =>
    obtain ⟨_, t, rfl, ⟨⟩, tail⟩ := List.map_eq_cons_iff.1 h.symm
    rw [List.flatMap_cons, utf8EncodeChar_three inside (by simpa using third) lead,
      ← ih tail.symm]
    rfl
  | case12 a _ more lo hi lead b inside zero c third one d rest fourth ih =>
    obtain ⟨_, t, rfl, ⟨⟩, tail⟩ := List.map_eq_cons_iff.1 h.symm
    obtain rfl : more = 2 := by have := bounds_of_lead? lead; omega
    rw [List.flatMap_cons, utf8EncodeChar_four inside (by simpa using third)
      (by simpa using fourth) lead, ← ih tail.symm]
    rfl
  | _ =>
    -- A segment that is no character stands in no text.
    obtain ⟨_, _, _, ⟨⟩, _⟩ := List.map_eq_cons_iff.1 h.symm

theorem eq_chars_of_collect {index : Nat} {segments : List Segment} {s : List Char}
    (h : collect index segments = .ok s) : segments = s.map .char := by
  induction segments generalizing index s with
  | nil =>
    cases h
    rfl
  | cons segment rest ih =>
    cases segment with
    | char c =>
      rw [collect] at h
      cases tail : collect (index + c.utf8Size) rest with
      | error fault => rw [tail] at h; cases h
      | ok t =>
        rw [tail] at h
        cases h
        rw [List.map_cons, ih tail]
    | broken length => cases h
    | cut length => cases h

/-- Bytes spell a text exactly if they are its bytes. -/
theorem decode_eq_ok_iff {bytes : Bytes} {text : String} :
    decode bytes = .ok text ↔ bytes = encode text := by
  constructor
  · intro h
    rw [decode] at h
    cases collected : collect 0 (scan bytes) with
    | error fault => rw [collected] at h; cases h
    | ok s =>
      rw [collected] at h
      cases h
      rw [encode, String.toList_ofList]
      exact eq_of_scan_eq_chars (eq_chars_of_collect collected)
  · rintro rfl
    exact decode_encode text

/-! ## The lenient reader -/

@[simp] theorem decodeLossy_encode (text : String) : decodeLossy (encode text) = text := by
  rw [decodeLossy, encode, scan_encode, List.map_map]
  exact (congrArg String.ofList (List.map_id _)).trans String.ofList_toList

theorem eq_chars_of_shown {segments : List Segment} {s : List Char}
    (shown : segments.map Segment.shown = s) (plain : replacement ∉ s) :
    segments = s.map .char := by
  subst shown
  rw [List.map_map]
  refine (List.map_id' segments).symm.trans (List.map_congr_left fun segment mem => ?_)
  cases segment with
  | char c => rfl
  | broken length | cut length => exact absurd (List.mem_map_of_mem mem) plain

/-- A text without U+FFFD is shown for its own bytes only. -/
theorem decodeLossy_eq_iff {bytes : Bytes} {text : String} (plain : replacement ∉ text.toList) :
    decodeLossy bytes = text ↔ bytes = encode text := by
  constructor
  · rintro rfl
    rw [decodeLossy, String.toList_ofList] at plain
    rw [decodeLossy, encode, String.toList_ofList]
    exact eq_of_scan_eq_chars (eq_chars_of_shown rfl plain)
  · rintro rfl
    exact decodeLossy_encode text

theorem lt_of_lead? {a b lo hi : UInt8} {more : Nat} (low : a < 0x80)
    (lead : lead? b = some (more, lo, hi)) : a < lo := by
  have bounds := bounds_of_lead? lead
  simp only [UInt8.lt_iff_toNat_lt, UInt8.reduceToNat] at low ⊢
  omega

theorem isContinuation_of_low {a : UInt8} (low : a < 0x80) : isContinuation a = false := by
  rw [isContinuation, Bool.and_eq_false_iff, decide_eq_false_iff_not, UInt8.not_le]
  exact .inl low

/-- A byte below 0x80 is never taken for a part of what is before it. -/
theorem shown_scan_append (bytes : Bytes) {a : UInt8} (low : a < 0x80) (rest : Bytes) :
    (scan (bytes ++ a :: rest)).map Segment.shown =
      (scan bytes).map Segment.shown ++ (scan (a :: rest)).map Segment.shown := by
  fun_induction scan bytes with
  | case1 => rfl
  | case2 b s lowb ih =>
    rw [List.cons_append, scan, if_pos lowb, List.map_cons, ih]
    rfl
  | case3 b s high none ih =>
    rw [List.cons_append, scan, if_neg high, none]
    simp only [List.map_cons, ih]
    rfl
  | case4 b high more lo hi lead =>
    have out : a < lo ∨ hi < a := .inl (lt_of_lead? low lead)
    rw [List.cons_append, List.nil_append, scan, if_neg high, lead]
    simp only [if_pos out, List.map_cons]
    rfl
  | case5 b high more lo hi lead b' s out ih =>
    rw [List.cons_append, List.cons_append, scan, if_neg high, lead]
    simp only [if_pos out, List.map_cons]
    rw [← List.cons_append, ih]
    rfl
  | case6 b high lo hi b' s inside lead ih =>
    rw [List.cons_append, List.cons_append, scan_two high inside _ lead, List.map_cons, ih]
    rfl
  | case7 b high more lo hi lead b' inside zero =>
    rw [List.cons_append, List.cons_append, List.nil_append, scan, if_neg high, lead]
    simp only [if_neg inside, if_neg zero, isContinuation_of_low low, if_true, List.map_cons]
    rfl
  | case8 b high more lo hi lead b' inside zero c s out ih =>
    rw [List.cons_append, List.cons_append, List.cons_append, scan, if_neg high, lead]
    simp only [if_neg inside, if_neg zero, out, if_true, List.map_cons]
    rw [← List.cons_append, ih]
    rfl
  | case9 b high lo hi b' inside c s third lead _ ih =>
    rw [List.cons_append, List.cons_append, List.cons_append,
      scan_three high inside _ (by simpa using third) lead, List.map_cons, ih]
    rfl
  | case10 b high more lo hi lead b' inside zero c third one =>
    rw [List.cons_append, List.cons_append, List.cons_append, List.nil_append, scan, if_neg high,
      lead]
    simp only [if_neg inside, if_neg zero, if_neg third, if_neg one, isContinuation_of_low low,
      if_true, List.map_cons]
    rfl
  | case11 b high more lo hi lead b' inside zero c third one d s out ih =>
    rw [List.cons_append, List.cons_append, List.cons_append, List.cons_append, scan, if_neg high,
      lead]
    simp only [if_neg inside, if_neg zero, if_neg third, if_neg one, out, if_true, List.map_cons]
    rw [← List.cons_append, ih]
    rfl
  | case12 b high more lo hi lead b' inside zero c third one d s fourth ih =>
    obtain rfl : more = 2 := by have := bounds_of_lead? lead; omega
    rw [List.cons_append, List.cons_append, List.cons_append, List.cons_append,
      scan_four high inside _ (by simpa using third) (by simpa using fourth) lead, List.map_cons,
      ih]
    rfl

/-- A segment has bytes of its own, and what is behind them is cut for itself. -/
theorem exists_scan_cons (a : UInt8) (s : Bytes) :
    ∃ segment own rest, a :: s = own ++ rest ∧ scan (a :: s) = segment :: scan rest := by
  generalize first : a :: s = bytes
  fun_cases scan bytes with
  | case1 => cases first
  | case2 b s => exact ⟨_, [b], s, rfl, rfl⟩
  | case3 b s => exact ⟨_, [b], s, rfl, rfl⟩
  | case4 b => exact ⟨_, [b], [], rfl, rfl⟩
  | case5 b _ _ _ _ _ b' s => exact ⟨_, [b], b' :: s, rfl, rfl⟩
  | case6 b _ _ _ b' s => exact ⟨_, [b, b'], s, rfl, rfl⟩
  | case7 b _ _ _ _ _ b' => exact ⟨_, [b, b'], [], rfl, rfl⟩
  | case8 b _ _ _ _ _ b' _ _ c s => exact ⟨_, [b, b'], c :: s, rfl, rfl⟩
  | case9 b _ _ _ b' _ c s => exact ⟨_, [b, b', c], s, rfl, rfl⟩
  | case10 b _ _ _ _ _ b' _ _ c => exact ⟨_, [b, b', c], [], rfl, rfl⟩
  | case11 b _ _ _ _ _ b' _ _ c _ _ d s => exact ⟨_, [b, b', c], d :: s, rfl, rfl⟩
  | case12 b _ _ _ _ _ b' _ _ c _ _ d s => exact ⟨_, [b, b', c, d], s, rfl, rfl⟩

/-- What is shown at the end of bytes, and is not U+FFFD, are bytes of their own. -/
theorem suffix_of_shown {bytes : Bytes} {front tail : List Char} (plain : replacement ∉ tail)
    (shown : (scan bytes).map Segment.shown = front ++ tail) :
    tail.flatMap String.utf8EncodeChar <:+ bytes := by
  induction front generalizing bytes with
  | nil =>
    rw [eq_of_scan_eq_chars (eq_chars_of_shown shown plain)]
    exact List.suffix_refl _
  | cons c front ih =>
    cases bytes with
    | nil => cases shown
    | cons a s =>
      obtain ⟨segment, own, rest, eq, scanned⟩ := exists_scan_cons a s
      rw [scanned] at shown
      rw [eq]
      exact (ih (List.cons.inj shown).2).trans (List.suffix_append own rest)

theorem decodeLossy_append (bytes : Bytes) {a : UInt8} (low : a < 0x80) (rest : Bytes) :
    decodeLossy (bytes ++ a :: rest) = decodeLossy bytes ++ decodeLossy (a :: rest) := by
  rw [decodeLossy, shown_scan_append bytes low, String.ofList_append]
  rfl

/-- Bytes are shown as a text that ends in another one, which begins with a byte below 0x80, exactly
if they end in the bytes of that. -/
theorem exists_decodeLossy_eq_iff {bytes rest : Bytes} {tail : String} {a : UInt8}
    (begins : encode tail = a :: rest) (low : a < 0x80) (plain : replacement ∉ tail.toList) :
    (∃ front, decodeLossy bytes = front ++ tail) ↔ encode tail <:+ bytes := by
  constructor
  · rintro ⟨front, shown⟩
    have cut : (scan bytes).map Segment.shown = front.toList ++ tail.toList := by
      rw [← String.toList_append, ← shown, decodeLossy, String.toList_ofList]
    exact suffix_of_shown plain cut
  · rintro ⟨own, rfl⟩
    refine ⟨decodeLossy own, ?_⟩
    rw [begins, decodeLossy_append own low, ← begins, decodeLossy_encode]

end SnapshotStore.Utf8
