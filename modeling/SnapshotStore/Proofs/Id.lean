import Mathlib.Algebra.Group.Nat.Defs
import Mathlib.Data.String.Basic
import SnapshotStore.Id

/-!
Identifiers read back from their text (`parse?_render`), and what may stand in it: few characters,
all of them graphic (`isGraphic_of_parse?`).
-/

namespace SnapshotStore.Id

@[simp] theorem length_digits (count n : Nat) : (digits count n).length = count := by
  induction count generalizing n with
  | zero => rfl
  | succ count ih => rw [digits, List.length_append, ih, List.length_singleton]

theorem ofDigits?_append (acc : Nat) (s t : List Char) :
    ofDigits? acc (s ++ t) = (ofDigits? acc s).bind (ofDigits? · t) := by
  induction s generalizing acc with
  | nil => rfl
  | cons c s ih =>
    rw [List.cons_append, ofDigits?, ofDigits?]
    cases Hex.digitValue? c with
    | none => rfl
    | some d => exact ih _

/-- Digits spell the number they were made of. -/
theorem ofDigits?_digits (count n acc : Nat) :
    ofDigits? acc (digits count n) = some (acc * 16 ^ count + n % 16 ^ count) := by
  induction count generalizing n with
  | zero => simp [digits, ofDigits?, Nat.mod_one]
  | succ count ih =>
    rw [digits, ofDigits?_append, ih, Option.bind_some, ofDigits?,
      Hex.digitValue?_digit (Nat.mod_lt _ (by decide))]
    apply congrArg some
    rw [Nat.pow_succ', Nat.mod_mul, Nat.mul_left_comm]
    generalize acc * 16 ^ count = high
    generalize n / 16 % 16 ^ count = middle
    omega

theorem ofSimple?_digits (id : Id) : ofSimple? (digits 32 id.val.toNat) = some id := by
  have small : id.val.toNat < 16 ^ 32 := id.val.isLt
  rw [ofSimple?, if_pos (length_digits _ _), ofDigits?_digits, Nat.zero_mul, Nat.zero_add,
    Nat.mod_eq_of_lt small]
  exact congrArg (fun v => some (Id.mk v)) (BitVec.ofNat_toNat 128 id.val)

/-- Groups of digits between hyphens. -/
theorem ofHyphenated?_groups {a b c d e : List Char} (ha : a.length = 8) (hb : b.length = 4)
    (hc : c.length = 4) (hd : d.length = 4) (he : e.length = 12) :
    ofHyphenated? (a ++ '-' :: b ++ '-' :: c ++ '-' :: d ++ '-' :: e) =
      ofSimple? (a ++ b ++ c ++ d ++ e) := by
  rw [ofHyphenated?, if_pos]
  · simp (disch := omega) [List.drop_append, List.drop_eq_nil_of_le, ha, hb, hc,
      hd]
  · simp [ha, hb, hc, hd, he]

theorem take_drop_append (s : List Char) (i count : Nat) :
    (s.drop i).take count ++ s.drop (i + count) = s.drop i := by
  rw [← List.drop_drop]
  exact List.take_append_drop count (s.drop i)

/-- The text of an identifier is that of its digits in five groups. -/
theorem chars_groups (id : Id) : ∃ a b c d e : List Char,
    id.chars = a ++ '-' :: b ++ '-' :: c ++ '-' :: d ++ '-' :: e ∧
      a.length = 8 ∧ b.length = 4 ∧ c.length = 4 ∧ d.length = 4 ∧ e.length = 12 ∧
      a ++ b ++ c ++ d ++ e = digits 32 id.val.toNat := by
  have length := length_digits 32 id.val.toNat
  refine ⟨_, _, _, _, _, rfl, ?_, ?_, ?_, ?_, ?_, ?_⟩
  · rw [List.length_take, length]
    rfl
  · rw [List.length_take, List.length_drop, length]
    rfl
  · rw [List.length_take, List.length_drop, length]
    rfl
  · rw [List.length_take, List.length_drop, length]
    rfl
  · rw [List.length_drop, length]
  · rw [List.append_assoc, take_drop_append, List.append_assoc, take_drop_append,
      List.append_assoc, take_drop_append, List.take_append_drop]

/-- An identifier is read back from its text. -/
@[simp] theorem parse?_render (id : Id) : parse? id.render = some id := by
  obtain ⟨a, b, c, d, e, text, ha, hb, hc, hd, he, all⟩ := id.chars_groups
  have length : (a ++ '-' :: b ++ '-' :: c ++ '-' :: d ++ '-' :: e).length = 36 := by
    simp only [List.length_append, List.length_cons]
    omega
  rw [parse?, render, String.toList_ofList, text]
  rw [if_neg (by rw [length]; decide), if_pos length, ofHyphenated?_groups ha hb hc hd he, all,
    ofSimple?_digits]

theorem length_render (id : Id) : id.render.toList.length = 36 := by
  obtain ⟨a, b, c, d, e, text, ha, hb, hc, hd, he, _⟩ := id.chars_groups
  rw [render, String.toList_ofList, text]
  simp only [List.length_append, List.length_cons]
  omega

/-- No short text spells an identifier. -/
theorem length_of_parse? {text : String} {id : Id} (h : parse? text = some id) :
    32 ≤ text.toList.length := by
  rw [parse?] at h
  refine Nat.not_lt.1 fun short => ?_
  rw [if_neg (by omega), if_neg (by omega), if_neg (fun e => by omega),
    if_neg (fun e => by omega)] at h
  cases h

theorem render_injective {id id' : Id} (h : id.render = id'.render) : id = id' := by
  have := parse?_render id
  rw [h, parse?_render] at this
  exact (Option.some.inj this).symm

/-! ## Characters -/

/-- Whether a character takes one byte and does not end names. -/
def IsGraphic (c : Char) : Prop := 0 < c.toNat ∧ c.toNat < 128

instance (c : Char) : Decidable (IsGraphic c) := inferInstanceAs (Decidable (_ ∧ _))

theorem utf8ByteSize_of_isGraphic {text : String} (h : ∀ c ∈ text.toList, IsGraphic c) :
    text.utf8ByteSize = text.toList.length := by
  rw [← String.utf8Len_toList]
  generalize text.toList = s at h
  induction s with
  | nil => rfl
  | cons c s ih =>
    obtain ⟨first, rest⟩ := List.forall_mem_cons.1 h
    have single : c.utf8Size = 1 :=
      Char.utf8Size_eq_one_iff.2 (UInt32.le_iff_toNat_le.2 (Nat.le_of_lt_succ first.2))
    rw [String.utf8Len_cons, ih rest, single, List.length_cons]

theorem isGraphic_of_all {s : List Char} (h : (s.all fun c => decide (IsGraphic c)) = true) :
    ∀ c ∈ s, IsGraphic c :=
  fun c mem => of_decide_eq_true (List.all_eq_true.1 h c mem)

theorem isGraphic_of_digitValue? {c : Char} {d : Nat} (h : Hex.digitValue? c = some d) :
    IsGraphic c := by
  have digits : ∀ k : Fin 16, IsGraphic (Hex.digit k.val) ∧ IsGraphic (Hex.upperDigit k.val) := by
    decide
  obtain ⟨small, rfl | rfl⟩ := Hex.digitValue?_eq_some_iff.1 h
  · exact (digits ⟨d, small⟩).1
  · exact (digits ⟨d, small⟩).2

theorem isGraphic_of_ofDigits? {acc n : Nat} {s : List Char} (h : ofDigits? acc s = some n) :
    ∀ c ∈ s, IsGraphic c := by
  induction s generalizing acc with
  | nil => exact nofun
  | cons c s ih =>
    rw [ofDigits?] at h
    obtain ⟨d, digit, rest⟩ := Option.bind_eq_some_iff.1 h
    intro c' mem
    rcases List.mem_cons.1 mem with rfl | mem
    · exact isGraphic_of_digitValue? digit
    · exact ih rest c' mem

theorem isGraphic_of_ofSimple? {s : List Char} {id : Id} (h : ofSimple? s = some id) :
    ∀ c ∈ s, IsGraphic c := by
  rw [ofSimple?] at h
  split at h
  · obtain ⟨n, digits, -⟩ := Option.map_eq_some_iff.1 h
    exact isGraphic_of_ofDigits? digits
  · cases h

/-- The characters from a place on are the one there and those behind it. -/
theorem forall_drop {P : Char → Prop} {s : List Char} {i : Nat} {c : Char} (there : s[i]? = some c)
    (holds : P c) (later : ∀ c ∈ s.drop (i + 1), P c) : ∀ c ∈ s.drop i, P c := by
  obtain ⟨short, rfl⟩ := List.getElem?_eq_some_iff.1 there
  rw [List.drop_eq_getElem_cons short]
  exact List.forall_mem_cons.2 ⟨holds, later⟩

theorem forall_take_drop {P : Char → Prop} {s : List Char} {i : Nat} (count : Nat)
    (first : ∀ c ∈ (s.drop i).take count, P c) (later : ∀ c ∈ s.drop (i + count), P c) :
    ∀ c ∈ s.drop i, P c := by
  rw [← take_drop_append s i count]
  exact List.forall_mem_append.2 ⟨first, later⟩

theorem isGraphic_of_ofHyphenated? {s : List Char} {id : Id} (h : ofHyphenated? s = some id) :
    ∀ c ∈ s, IsGraphic c := by
  rw [ofHyphenated?] at h
  split at h
  · rename_i marks
    obtain ⟨-, eighth, thirteenth, eighteenth, last⟩ := marks
    have digits := isGraphic_of_ofSimple? h
    simp only [List.forall_mem_append] at digits
    obtain ⟨⟨⟨⟨a, b⟩, c⟩, d⟩, e⟩ := digits
    have hyphen : IsGraphic '-' := by decide
    exact forall_take_drop (i := 0) 8 a <| forall_drop eighth hyphen <|
      forall_take_drop 4 b <| forall_drop thirteenth hyphen <|
      forall_take_drop 4 c <| forall_drop eighteenth hyphen <|
      forall_take_drop 4 d <| forall_drop last hyphen e
  · cases h

theorem isGraphic_of_toLower {c : Char} (h : IsGraphic c.toLower) : IsGraphic c := by
  delta Char.toLower at h
  split at h
  · rename_i upper
    have least : 65 ≤ c.toNat := UInt32.le_iff_toNat_le.1 upper.1
    have greatest : c.toNat ≤ 90 := UInt32.le_iff_toNat_le.1 upper.2
    constructor <;> omega
  · exact h

/-- A text that spells an identifier has few characters, all of them graphic. -/
theorem isGraphic_of_parse? {text : String} {id : Id} (h : parse? text = some id) :
    text.toList.length ≤ 45 ∧ ∀ c ∈ text.toList, IsGraphic c := by
  rw [parse?] at h
  split at h
  · exact ⟨by omega, isGraphic_of_ofSimple? h⟩
  split at h
  · exact ⟨by omega, isGraphic_of_ofHyphenated? h⟩
  split at h
  · rename_i braces
    obtain ⟨length, first, last⟩ := braces
    rw [List.head?_eq_getElem?] at first
    rw [List.getLast?_eq_getElem?, length] at last
    refine ⟨by omega, ?_⟩
    refine forall_drop (s := text.toList) (i := 0) first (by decide) <|
      forall_take_drop 36 (isGraphic_of_ofHyphenated? h) <| forall_drop last (by decide) ?_
    rw [List.drop_eq_nil_of_le (Nat.le_of_eq length)]
    exact nofun
  split at h
  · rename_i prefixed
    refine ⟨by omega, ?_⟩
    refine forall_take_drop (s := text.toList) (i := 0) 9 ?_ (isGraphic_of_ofHyphenated? h)
    intro c mem
    have known : ∀ c ∈ urn, IsGraphic c := isGraphic_of_all (by decide)
    exact isGraphic_of_toLower (known _ (prefixed.2 ▸ List.mem_map_of_mem mem))
  · cases h

end SnapshotStore.Id
