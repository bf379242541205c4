import SnapshotStore.Proofs.Time.Calendar
import SnapshotStore.Time.Stamp

/-!
Points in time read back from their text. Each part is read from what was written of it, whatever
follows. Main statements: a point in a countable year is read back, leap seconds included
(`parse?_render`), and no text spells any other point (`isShown_of_parse?`).
-/

namespace SnapshotStore.Stamp

/-! ## Digits -/

theorem ofDigits_eq (digits : List Char) : ofDigits digits = Nat.ofDigitChars 10 digits 0 := by
  rw [ofDigits, Nat.ofDigitChars_eq_foldl]
  simp only [Nat.mul_comm 10]
  rfl

theorem ofDigits_padded (width n : Nat) : ofDigits (padded width n) = n := by
  rw [ofDigits_eq, padded, Nat.ofDigitChars_append, Nat.ofDigitChars_replicate_zero, Nat.mul_zero,
    Nat.ofDigitChars_ten_toDigits]

theorem isDigit_of_mem_padded {width n : Nat} {c : Char} (h : c ∈ padded width n) :
    c.isDigit = true := by
  rcases List.mem_append.1 h with h | h
  · rw [List.eq_of_mem_replicate h]
    rfl
  · exact Nat.isDigit_of_mem_toDigits (by decide) (by decide) h

theorem length_padded {width n : Nat} (h0 : 0 < width) (h : n < 10 ^ width) :
    (padded width n).length = width := by
  have le := (Nat.length_toDigits_le_iff (by decide) h0).2 h
  rw [padded, List.length_append, List.length_replicate]
  omega

theorem padded_ne_nil (width n : Nat) : padded width n ≠ [] :=
  List.append_ne_nil_of_right_ne_nil _ Nat.toDigits_ne_nil

/-- Digits are read as a number if as many are asked for, or if no other digit follows. -/
theorem readNumber_digits {digits rest : List Char} (hd : ∀ c ∈ digits, c.isDigit = true)
    (h0 : digits ≠ []) {most : Nat}
    (end_eq : digits.length = most ∨
      digits.length ≤ most ∧ rest.takeWhile Char.isDigit = []) :
    readNumber most (digits ++ rest) = some (ofDigits digits, rest) := by
  have taken : ((digits ++ rest).takeWhile Char.isDigit).take most = digits := by
    rw [List.takeWhile_append_of_pos hd]
    rcases end_eq with rfl | ⟨le, none⟩
    · exact List.take_left
    · rw [none, List.append_nil, List.take_of_length_le le]
  rw [readNumber, taken, if_neg (by simpa using h0), List.drop_left]

theorem toNat_of_isDigit {c : Char} (h : c.isDigit = true) : 48 ≤ c.toNat ∧ c.toNat ≤ 57 := by
  simp only [Char.isDigit, Bool.and_eq_true, decide_eq_true_eq, UInt32.le_iff_toNat_le] at h
  exact h

theorem ofDigits_lt {digits : List Char} (h : ∀ c ∈ digits, c.isDigit = true) :
    ofDigits digits < 10 ^ digits.length := by
  rw [ofDigits_eq]
  induction digits with
  | nil => decide
  | cons c digits ih =>
    obtain ⟨first, others⟩ := List.forall_mem_cons.1 h
    have digit : c.toNat - 48 ≤ 9 := by
      have := toNat_of_isDigit first
      omega
    rw [Nat.ofDigitChars_cons, Nat.ofDigitChars_eq_ofDigitChars_zero]
    calc 10 ^ digits.length * (10 * 0 + (c.toNat - 48)) + Nat.ofDigitChars 10 digits 0
      _ < 10 ^ digits.length * (c.toNat - 48) + 10 ^ digits.length := by
        rw [Nat.mul_zero, Nat.zero_add]
        exact Nat.add_lt_add_left (ih others) _
      _ = 10 ^ digits.length * (c.toNat - 48 + 1) := rfl
      _ ≤ 10 ^ digits.length * 10 := Nat.mul_le_mul_left _ (Nat.succ_le_succ digit)
      _ = 10 ^ (c :: digits).length := rfl

theorem skip_of_isDigit {c : Char} (h : c.isDigit = true) (s : List Char) :
    Blank.skip (c :: s) = c :: s := by
  apply List.dropWhile_cons_of_neg
  obtain ⟨low, high⟩ := toNat_of_isDigit h
  simp only [Blank.isBlank, Bool.or_eq_true, Bool.and_eq_true, decide_eq_true_eq]
  omega

theorem skip_padded (width n : Nat) (s : List Char) :
    Blank.skip (padded width n ++ s) = padded width n ++ s := by
  cases hp : padded width n with
  | nil => exact absurd hp (padded_ne_nil width n)
  | cons c rest =>
    have hc : c ∈ padded width n := hp ▸ List.mem_cons_self
    exact skip_of_isDigit (isDigit_of_mem_padded hc) _

/-! ## Parts -/

theorem readPart_padded {n : Nat} (h : n < 100) (rest : List Char) :
    readPart (padded 2 n ++ rest) = some (n, rest) := by
  rw [readPart, skip_padded, readNumber_digits (fun _ => isDigit_of_mem_padded) (padded_ne_nil 2 n)
    (.inl (length_padded (by decide) h)), ofDigits_padded]

theorem readYear_digit {c : Char} (hc : c.isDigit = true) (s : List Char) :
    readYear (c :: s) = (readNumber 4 (c :: s)).map fun (n, rest) => ((n : Int), rest) := by
  rw [readYear, skip_of_isDigit hc]
  split
  · next eq =>
    cases eq
    cases hc
  · next eq =>
    cases eq
    cases hc
  · rfl

/-- A year, and the hyphen behind it. -/
theorem readYear_yearChars (year : Int) (rest : List Char) :
    readYear (yearChars year ++ '-' :: rest) = some (year, '-' :: rest) := by
  rw [yearChars]
  by_cases plain : 0 ≤ year ∧ year ≤ 9999
  · have small : year.toNat < 10 ^ 4 := by omega
    have read : readNumber 4 (padded 4 year.toNat ++ '-' :: rest) =
        some (ofDigits (padded 4 year.toNat), '-' :: rest) :=
      readNumber_digits (fun _ => isDigit_of_mem_padded) (padded_ne_nil 4 year.toNat)
        (.inl (length_padded (by decide) small))
    rw [ofDigits_padded] at read
    rw [if_pos plain]
    cases hp : padded 4 year.toNat with
    | nil => exact absurd hp (padded_ne_nil _ _)
    | cons c digits =>
      have hc : c.isDigit = true := isDigit_of_mem_padded (hp ▸ List.mem_cons_self)
      rw [hp] at read
      rw [List.cons_append, readYear_digit hc, ← List.cons_append, read, Option.map_some]
      exact congrArg (fun y => some (y, '-' :: rest)) (Int.toNat_of_nonneg plain.1)
  · -- A sign, and then digits up to the hyphen.
    have read : readNumber (padded 4 year.natAbs ++ '-' :: rest).length
          (padded 4 year.natAbs ++ '-' :: rest) =
        some (ofDigits (padded 4 year.natAbs), '-' :: rest) :=
      readNumber_digits (fun _ => isDigit_of_mem_padded) (padded_ne_nil 4 year.natAbs)
        (.inr ⟨by rw [List.length_append]; omega, rfl⟩)
    rw [ofDigits_padded] at read
    rw [if_neg plain]
    by_cases negative : year < 0
    · rw [if_pos negative]
      show (readNumber (padded 4 year.natAbs ++ '-' :: rest).length
        (padded 4 year.natAbs ++ '-' :: rest)).map _ = _
      rw [read, Option.map_some]
      exact congrArg (fun y => some (y, '-' :: rest)) (by omega)
    · rw [if_neg negative]
      show (readNumber (padded 4 year.natAbs ++ '-' :: rest).length
        (padded 4 year.natAbs ++ '-' :: rest)).map _ = _
      rw [read, Option.map_some]
      exact congrArg (fun y => some (y, '-' :: rest)) (by omega)

theorem readFraction_padded {width n : Nat} (h0 : 0 < width) (h9 : width ≤ 9) (h : n < 10 ^ width)
    (rest : List Char) :
    readFraction ('.' :: padded width n ++ 'Z' :: rest) =
      some (n * 10 ^ (9 - width), 'Z' :: rest) := by
  have digits : (padded width n ++ 'Z' :: rest).takeWhile Char.isDigit = padded width n := by
    rw [List.takeWhile_append_of_pos fun _ => isDigit_of_mem_padded,
      List.takeWhile_cons_of_neg (by decide), List.append_nil]
  have length := length_padded h0 h
  have drop : (padded width n ++ 'Z' :: rest).drop (padded width n).length = 'Z' :: rest :=
    List.drop_left
  rw [List.cons_append, readFraction]
  simp only [digits]
  rw [if_neg (by simpa using padded_ne_nil width n), List.take_of_length_le (by omega),
    ofDigits_padded, drop, length]
  rfl

/-- The fraction of a second, and the mark of UTC behind it. -/
theorem readFraction_fractionChars {nanos : Nat} (h : nanos < 1000000000) (rest : List Char) :
    readFraction (fractionChars nanos ++ 'Z' :: rest) = some (nanos, 'Z' :: rest) := by
  rw [fractionChars]
  by_cases h0 : nanos = 0
  · rw [if_pos h0, h0]
    rfl
  rw [if_neg h0]
  by_cases h3 : nanos % 1000000 = 0
  · have value : nanos / 1000000 * 10 ^ (9 - 3) = nanos := by omega
    rw [if_pos h3, readFraction_padded (by decide) (by decide) (by omega), value]
  rw [if_neg h3]
  by_cases h6 : nanos % 1000 = 0
  · have value : nanos / 1000 * 10 ^ (9 - 6) = nanos := by omega
    rw [if_pos h6, readFraction_padded (by decide) (by decide) (by omega), value]
  · rw [if_neg h6, readFraction_padded (by decide) (by decide) h, Nat.sub_self, Nat.pow_zero,
      Nat.mul_one]

/-! ## Points in time -/

/-- A point in time that a clock can show: in a countable year, and no leap second. -/
structure IsPlain (stamp : Stamp) : Prop where
  countable : isCountable (Calendar.ofDays (stamp.seconds.fdiv 86400)).year = true
  nanos_lt : stamp.nanos < 1000000000

instance (stamp : Stamp) : Decidable stamp.IsPlain :=
  decidable_of_iff (isCountable (Calendar.ofDays (stamp.seconds.fdiv 86400)).year = true ∧
    stamp.nanos < 1000000000) ⟨fun h => ⟨h.1, h.2⟩, fun h => ⟨h.countable, h.nanos_lt⟩⟩

/-- A point in time that a text can show: in a countable year, and with a fraction beyond one second
only in the last second of a minute. -/
structure IsShown (stamp : Stamp) : Prop where
  countable : isCountable (Calendar.ofDays (stamp.seconds.fdiv 86400)).year = true
  nanos_lt : stamp.nanos < 2000000000
  leap : 1000000000 ≤ stamp.nanos → stamp.seconds % 60 = 59

theorem IsPlain.shown {stamp : Stamp} (h : stamp.IsPlain) : stamp.IsShown :=
  ⟨h.countable, Nat.lt_trans h.nanos_lt (by decide), fun leap => absurd h.nanos_lt (by omega)⟩

/-- A point in time is put together again from its parts. -/
theorem assemble_parts {stamp : Stamp} (h : stamp.IsShown) {second : Nat}
    (hs : (second : Int) = stamp.seconds - stamp.seconds.fdiv 86400 * 86400) (hd : second < 86400) :
    assemble (Calendar.ofDays (stamp.seconds.fdiv 86400)) (second / 3600) (second / 60 % 60)
      (second % 60 + stamp.nanos / 1000000000) (stamp.nanos % 1000000000) 0 = some stamp := by
  obtain ⟨countable, nanos_lt, last⟩ := h
  obtain ⟨leap, isLeap, shown⟩ : ∃ leap, stamp.nanos / 1000000000 = leap ∧
      ((if second % 60 + leap = 60 then 1 else 0) = leap ∧ second % 60 + leap ≤ 60) := by
    by_cases h : stamp.nanos < 1000000000
    · exact ⟨0, Nat.div_eq_of_lt h, if_neg (by omega), by omega⟩
    · have minute := last (by omega)
      exact ⟨1, by omega, if_pos (by omega), by omega⟩
  have parts : Calendar.toDays (Calendar.ofDays (stamp.seconds.fdiv 86400)) * 86400 +
      (second / 3600 : Nat) * 3600 + (second / 60 % 60 : Nat) * 60 +
        (second % 60 + leap - leap : Nat) - 0 = stamp.seconds := by
    rw [Calendar.toDays_ofDays]
    omega
  have exist : (Calendar.ofDays (stamp.seconds.fdiv 86400)).isValid ∧
      isCountable (Calendar.ofDays (stamp.seconds.fdiv 86400)).year ∧ second / 3600 < 24 ∧
      second / 60 % 60 < 60 ∧ second % 60 + leap ≤ 60 ∧ (-86400 : Int) < 0 ∧ (0 : Int) < 86400 :=
    ⟨Calendar.isValid_ofDays _, countable, by omega, by omega, shown.2, by decide, by decide⟩
  have nanos : stamp.nanos % 1000000000 + leap * 1000000000 = stamp.nanos := by omega
  rw [isLeap, assemble, if_pos exist]
  simp only [shown.1, parts, countable, nanos]
  rfl

theorem readMark_self {mark : Char} (h : Blank.isBlank mark = false) (rest : List Char) :
    readMark mark (mark :: rest) = some rest := by
  rw [readMark, Blank.skip, List.dropWhile_cons_of_neg (by simp [h])]
  exact if_pos rfl

/-- A step of a reader whose answer is known. -/
theorem bind_of_eq {α β : Type} {answer : Option α} {a : α} (h : answer = some a)
    (f : α → Option β) : answer >>= f = f a := by
  rw [h]
  rfl

/-- A point in time is read back from its text. -/
theorem parse?_render {stamp : Stamp} (h : stamp.IsShown) : parse? stamp.render = some stamp := by
  have day : 0 ≤ stamp.seconds - stamp.seconds.fdiv 86400 * 86400 ∧
      stamp.seconds - stamp.seconds.fdiv 86400 * 86400 < 86400 := by
    rw [Int.fdiv_eq_ediv_of_nonneg _ (by decide)]
    omega
  obtain ⟨second, hs⟩ := Int.eq_ofNat_of_zero_le day.1
  have small : second < 86400 := by omega
  have valid := Calendar.isValid_ofDays (stamp.seconds.fdiv 86400)
  have whole := assemble_parts h hs.symm small
  have fraction : stamp.nanos % 1000000000 < 1000000000 := Nat.mod_lt _ (by decide)
  have text : stamp.render.toList =
      yearChars (Calendar.ofDays (stamp.seconds.fdiv 86400)).year ++ '-' ::
        (padded 2 (Calendar.ofDays (stamp.seconds.fdiv 86400)).month ++ '-' ::
        (padded 2 (Calendar.ofDays (stamp.seconds.fdiv 86400)).day ++ 'T' ::
        (padded 2 (second / 3600) ++ ':' :: (padded 2 (second / 60 % 60) ++ ':' ::
        (padded 2 (second % 60 + stamp.nanos / 1000000000) ++
          (fractionChars (stamp.nanos % 1000000000) ++ ['Z'])))))) := by
    rw [render, String.toList_ofList, chars]
    simp only [hs, List.append_assoc, List.cons_append]
    rfl
  obtain ⟨month, day⟩ := Calendar.lt_of_isValid valid
  generalize Calendar.ofDays (stamp.seconds.fdiv 86400) = date at valid whole text month day
  have hyphen := fun rest => readMark_self (show Blank.isBlank '-' = false from rfl) rest
  have colon := fun rest => readMark_self (show Blank.isBlank ':' = false from rfl) rest
  have hour := readPart_padded (show second / 3600 < 100 by omega)
  have minute := readPart_padded (show second / 60 % 60 < 100 by omega)
  have nanos_lt := h.nanos_lt
  have last := readPart_padded (show second % 60 + stamp.nanos / 1000000000 < 100 by omega)
  rw [parse?, text]
  apply (bind_of_eq (readYear_yearChars _ _) _).trans
  apply (bind_of_eq (hyphen _) _).trans
  apply (bind_of_eq (readPart_padded month _) _).trans
  apply (bind_of_eq (hyphen _) _).trans
  apply (bind_of_eq (readPart_padded day _) _).trans
  apply (bind_of_eq (hour _) _).trans
  apply (bind_of_eq (colon _) _).trans
  apply (bind_of_eq (minute _) _).trans
  apply (bind_of_eq (colon _) _).trans
  apply (bind_of_eq (last _) _).trans
  apply (bind_of_eq (readFraction_fractionChars fraction _) _).trans
  exact whole

/-! ## What a text can spell -/

theorem readFraction_lt {s rest : List Char} {nanos : Nat}
    (h : readFraction s = some (nanos, rest)) : nanos < 1000000000 := by
  unfold readFraction at h
  split at h
  · rename_i s
    dsimp only at h
    split at h
    · cases h
    · cases h
      have few : ((s.takeWhile Char.isDigit).take 9).length ≤ 9 := List.length_take_le ..
      have value : ofDigits ((s.takeWhile Char.isDigit).take 9) <
          10 ^ ((s.takeWhile Char.isDigit).take 9).length :=
        ofDigits_lt fun c taken =>
          List.all_eq_true.1 List.all_takeWhile c (List.mem_of_mem_take taken)
      generalize (s.takeWhile Char.isDigit).take 9 = counted at few value
      calc ofDigits counted * 10 ^ (9 - counted.length)
        _ < 10 ^ counted.length * 10 ^ (9 - counted.length) :=
          Nat.mul_lt_mul_of_pos_right value (Nat.pow_pos (by decide))
        _ = 1000000000 := by
          rw [← Nat.pow_add, Nat.add_sub_cancel' few]
  · cases h
    decide

/-- An offset from UTC is a number of whole minutes. -/
theorem readZone_dvd {s rest : List Char} {offset : Int} (h : readZone s = some (offset, rest)) :
    60 ∣ offset := by
  have signed : ∀ s, readZone.offset s = some (offset, rest) → 60 ∣ offset := by
    intro s h
    unfold readZone.offset at h
    split at h
    · cases h
      decide
    · cases h
      decide
    · rename_i sign s _ _
      split at h
      · obtain ⟨⟨hours, s'⟩, -, h⟩ := Option.bind_eq_some_iff.1 h
        obtain ⟨⟨minutes, s''⟩, -, h⟩ := Option.bind_eq_some_iff.1 h
        cases h
        split <;> omega
      · cases h
    · cases h
  unfold readZone at h
  split at h
  · split at h
    · cases h
      decide
    · exact signed _ h
  · exact signed _ h

theorem isShown_of_assemble {date : Calendar.Date} {hour minute second nanos : Nat} {offset : Int}
    {stamp : Stamp} (small : nanos < 1000000000) (minutes : 60 ∣ offset)
    (h : assemble date hour minute second nanos offset = some stamp) : stamp.IsShown := by
  unfold assemble at h
  split at h
  · generalize isLeap : (if second = 60 then 1 else 0) = leap at h
    dsimp only at h
    split at h
    · rename_i countable
      cases h
      refine ⟨countable, ?_, fun beyond => ?_⟩
      · dsimp only
        split at isLeap <;> omega
      · dsimp only at beyond ⊢
        split at isLeap <;> omega
    · cases h
  · cases h

/-- A text spells no point in time but one that a text can show. -/
theorem isShown_of_parse? {text : String} {stamp : Stamp} (h : parse? text = some stamp) :
    stamp.IsShown := by
  unfold parse? at h
  obtain ⟨⟨year, s⟩, -, h⟩ := Option.bind_eq_some_iff.1 h
  obtain ⟨s, -, h⟩ := Option.bind_eq_some_iff.1 h
  obtain ⟨⟨month, s⟩, -, h⟩ := Option.bind_eq_some_iff.1 h
  obtain ⟨s, -, h⟩ := Option.bind_eq_some_iff.1 h
  obtain ⟨⟨day, s⟩, -, h⟩ := Option.bind_eq_some_iff.1 h
  dsimp only at h
  split at h
  case h_4 => cases h
  -- Each of the three separators is followed by the same parts.
  all_goals
    obtain ⟨s, -, h⟩ := Option.bind_eq_some_iff.1 h
    obtain ⟨⟨hour, s⟩, -, h⟩ := Option.bind_eq_some_iff.1 h
    obtain ⟨s, -, h⟩ := Option.bind_eq_some_iff.1 h
    obtain ⟨⟨minute, s⟩, -, h⟩ := Option.bind_eq_some_iff.1 h
    obtain ⟨s, -, h⟩ := Option.bind_eq_some_iff.1 h
    obtain ⟨⟨second, s⟩, -, h⟩ := Option.bind_eq_some_iff.1 h
    obtain ⟨⟨nanos, s⟩, fraction, h⟩ := Option.bind_eq_some_iff.1 h
    obtain ⟨⟨offset, s⟩, zone, h⟩ := Option.bind_eq_some_iff.1 h
    dsimp only at h
    split at h
    · exact isShown_of_assemble (readFraction_lt fraction) (readZone_dvd zone) h
    · cases h

end SnapshotStore.Stamp
