import SnapshotStore.Proofs.Json.Quoted

/-!
How JSON text is read, whatever its layout. `Reads` says of a text that the reader takes all of it
for one spelling, whatever follows; a number needs an end (`Spells`), since what follows might belong
to it. Items and members give arrays and objects, with or without blanks between them.
-/

namespace SnapshotStore.Spelling

/-- Whether the reader takes a text for a spelling and stops behind it. Two steps a byte are
enough. -/
def Reads (text : Bytes) (s : Spelling) : Prop :=
  ∀ fuel rest, 2 * text.length ≤ fuel → readValue fuel (text ++ rest) = some (s, rest)

/-- Whether an input does not go on a number. -/
def Stops (s : Bytes) : Prop :=
  ∀ b, s.head? = some b → isDigit b = false ∧ b ≠ 0x2E ∧ b ≠ 0x65 ∧ b ≠ 0x45

/-- Whether the reader takes a text for a spelling and stops behind it if the text ends there. -/
def Spells (text : Bytes) (s : Spelling) : Prop :=
  ∀ fuel rest, 2 * text.length ≤ fuel → Stops rest → readValue fuel (text ++ rest) = some (s, rest)

/-- Whether the reader takes a text for the items of an array and its end. -/
def ReadsItems (text : Bytes) (items : List Spelling) : Prop :=
  ∀ fuel rest, 2 * text.length ≤ fuel → readItems fuel (text ++ rest) = some (items, rest)

/-- Whether the reader takes a text for the members of an object and its end. -/
def ReadsMembers (text : Bytes) (members : List (List Piece × Spelling)) : Prop :=
  ∀ fuel rest, 2 * text.length ≤ fuel → readMembers fuel (text ++ rest) = some (members, rest)

/-! ## Blanks -/

theorem skip_blanks {blanks : Bytes} (h : ∀ b ∈ blanks, isBlank b = true) (s : Bytes) :
    skip (blanks ++ s) = skip s := by
  rw [skip, List.dropWhile_append_of_pos h, skip]

theorem skip_cons {b : UInt8} (h : isBlank b = false) (s : Bytes) : skip (b :: s) = b :: s :=
  List.dropWhile_cons_of_neg (by simp [h])

theorem readValue_skip {s t : Bytes} (h : skip s = skip t) (fuel : Nat) :
    readValue fuel s = readValue fuel t := by
  cases fuel with
  | zero => rfl
  | succ fuel => rw [readValue, readValue, h]

theorem readMembers_skip {s t : Bytes} (h : skip s = skip t) (fuel : Nat) :
    readMembers fuel s = readMembers fuel t := by
  cases fuel with
  | zero => rfl
  | succ fuel => rw [readMembers, readMembers, h]

/-! ## Ends -/

theorem Reads.spells {text : Bytes} {s : Spelling} (reads : Reads text s) : Spells text s :=
  fun fuel rest enough _ => reads fuel rest enough

theorem stops_nil : Stops [] := nofun

theorem stops_cons {b : UInt8} (h : isDigit b = false ∧ b ≠ 0x2E ∧ b ≠ 0x65 ∧ b ≠ 0x45)
    (s : Bytes) : Stops (b :: s) := by
  rintro _ ⟨⟩
  exact h

theorem stops_blanks {blanks s : Bytes} (h : ∀ b ∈ blanks, isBlank b = true) (stops : Stops s) :
    Stops (blanks ++ s) := by
  cases blanks with
  | nil => exact stops
  | cons b blanks =>
    apply stops_cons
    have blank := h b List.mem_cons_self
    simp only [isBlank, Bool.or_eq_true, decide_eq_true_eq] at blank
    rcases blank with ((rfl | rfl) | rfl) | rfl <;> decide

theorem Spells.blanks {blanks text : Bytes} {s : Spelling} (h : ∀ b ∈ blanks, isBlank b = true)
    (spells : Spells text s) : Spells (blanks ++ text) s := by
  intro fuel rest enough stops
  rw [List.length_append] at enough
  rw [List.append_assoc, readValue_skip (skip_blanks h _)]
  exact spells fuel rest (by omega) stops

/-! ## Values -/

theorem reads_string (text : String) :
    Reads (bytesOf (Json.quoted text)) (.string (pieces text)) := by
  intro fuel rest enough
  cases fuel with
  | zero => exact absurd enough (by simp [Json.quoted, String.utf8EncodeChar])
  | succ fuel =>
    have form : bytesOf (Json.quoted text) ++ rest =
        0x22 :: (bytesOf (text.toList.flatMap Json.escape) ++ 0x22 :: rest) := by
      rw [Json.quoted, bytesOf_cons, bytesOf_append, List.append_assoc, List.append_assoc]
      rfl
    rw [form, readValue, skip_cons rfl]
    simp only [readPieces_quoted]
    rfl

/-- No value begins with the end of an array. -/
theorem readValue_of_skip {fuel : Nat} {s t : Bytes} (h : skip s = 0x5D :: t) :
    readValue fuel s = none := by
  cases fuel with
  | zero => rfl
  | succ fuel =>
    rw [readValue, h]
    rfl

/-- Items are read only where the array is not at its end. -/
theorem exists_skip_of_readItems {fuel : Nat} {s rest : Bytes} {items : List Spelling}
    (h : readItems fuel s = some (items, rest)) : ∃ c t, skip s = c :: t ∧ c ≠ 0x5D := by
  cases fuel with
  | zero => cases h
  | succ fuel =>
    cases hs : skip s with
    | nil =>
      have none : readValue fuel s = none := by
        cases fuel with
        | zero => rfl
        | succ fuel => rw [readValue, hs]
      rw [readItems, none] at h
      cases h
    | cons c t =>
      refine ⟨c, t, rfl, ?_⟩
      rintro rfl
      rw [readItems, readValue_of_skip hs] at h
      cases h

theorem exists_skip_of_readMembers {fuel : Nat} {s rest : Bytes}
    {members : List (List Piece × Spelling)} (h : readMembers fuel s = some (members, rest)) :
    ∃ t, skip s = 0x22 :: t := by
  cases fuel with
  | zero => cases h
  | succ fuel =>
    cases hs : skip s with
    | nil =>
      rw [readMembers, hs] at h
      cases h
    | cons c t =>
      by_cases hc : c = 0x22
      · exact ⟨t, by rw [hc]⟩
      · rw [readMembers, hs] at h
        simp only [if_neg hc] at h
        cases h

theorem reads_array_of_items {text : Bytes} {items : List Spelling} (h : ReadsItems text items) :
    Reads (0x5B :: text) (.array items) := by
  intro fuel rest enough
  rw [List.length_cons] at enough
  cases fuel with
  | zero => omega
  | succ fuel =>
    have read := h fuel rest (by omega)
    obtain ⟨c, t, start, notEnd⟩ := exists_skip_of_readItems read
    rw [List.cons_append, readValue, skip_cons rfl]
    have first : (0x5B : UInt8) ≠ 0x6E ∧ (0x5B : UInt8) ≠ 0x74 ∧ (0x5B : UInt8) ≠ 0x66 ∧
        (0x5B : UInt8) ≠ 0x22 := by
      decide
    simp only [first, start, read, notEnd, if_true, if_false]
    rfl

theorem reads_emptyArray : Reads [0x5B, 0x5D] (.array []) := by
  intro fuel rest enough
  cases fuel with
  | zero => exact absurd enough (by decide)
  | succ fuel =>
    show readValue (fuel + 1) (0x5B :: 0x5D :: rest) = _
    rw [readValue, skip_cons rfl]
    simp only [skip_cons (show isBlank 0x5D = false from rfl)]
    rfl

theorem reads_emptyObject : Reads [0x7B, 0x7D] (.object []) := by
  intro fuel rest enough
  cases fuel with
  | zero => exact absurd enough (by decide)
  | succ fuel =>
    show readValue (fuel + 1) (0x7B :: 0x7D :: rest) = _
    rw [readValue, skip_cons rfl]
    simp only [skip_cons (show isBlank 0x7D = false from rfl)]
    rfl

theorem reads_object_of_members {text : Bytes} {members : List (List Piece × Spelling)}
    (h : ReadsMembers text members) : Reads (0x7B :: text) (.object members) := by
  intro fuel rest enough
  rw [List.length_cons] at enough
  cases fuel with
  | zero => omega
  | succ fuel =>
    have read := h fuel rest (by omega)
    obtain ⟨t, start⟩ := exists_skip_of_readMembers read
    rw [List.cons_append, readValue, skip_cons rfl]
    have first : (0x7B : UInt8) ≠ 0x6E ∧ (0x7B : UInt8) ≠ 0x74 ∧ (0x7B : UInt8) ≠ 0x66 ∧
        (0x7B : UInt8) ≠ 0x22 ∧ (0x7B : UInt8) ≠ 0x5B ∧ (0x22 : UInt8) ≠ 0x7D := by
      decide
    simp only [first, start, read, if_true, if_false]
    rfl

/-! ## Items -/

theorem readsItems_last {text blanks : Bytes} {s : Spelling} (spells : Spells text s)
    (h : ∀ b ∈ blanks, isBlank b = true) : ReadsItems (text ++ (blanks ++ [0x5D])) [s] := by
  intro fuel rest enough
  rw [List.length_append, List.length_append, List.length_singleton] at enough
  cases fuel with
  | zero => omega
  | succ fuel =>
    have stops : Stops (blanks ++ [0x5D] ++ rest) := by
      rw [List.append_assoc]
      exact stops_blanks h (stops_cons (by decide) rest)
    rw [List.append_assoc, readItems, spells fuel _ (by omega) stops]
    simp only [Option.bind_eq_bind, Option.bind_some]
    rw [List.append_assoc, skip_blanks h, List.singleton_append, skip_cons rfl]
    rfl

theorem readsItems_cons {text further : Bytes} {s : Spelling} {items : List Spelling}
    (spells : Spells text s) (h : ReadsItems further items) :
    ReadsItems (text ++ 0x2C :: further) (s :: items) := by
  intro fuel rest enough
  rw [List.length_append, List.length_cons] at enough
  cases fuel with
  | zero => omega
  | succ fuel =>
    have stops : Stops (0x2C :: further ++ rest) := stops_cons (by decide) _
    rw [List.append_assoc, readItems, spells fuel _ (by omega) stops]
    simp only [Option.bind_eq_bind, Option.bind_some]
    rw [List.cons_append, skip_cons rfl]
    simp only [if_neg (show ¬(0x2C : UInt8) = 0x5D by decide), if_true, h fuel rest (by omega)]
    rfl

/-! ## Members -/

/-- A name with its value, and the mark between them. -/
theorem readMembers_member {text : Bytes} {s : Spelling} (spells : Spells text s) (name : String)
    {fuel : Nat} (enough : 2 * text.length ≤ fuel) {after : Bytes} (stops : Stops after) {c : UInt8}
    {rest : Bytes} (start : skip after = c :: rest) :
    readMembers (fuel + 1) (bytesOf (Json.quoted name) ++ (0x3A :: (text ++ after))) =
      if c = 0x7D then some ([(pieces name, s)], rest)
      else if c = 0x2C then
        (readMembers fuel rest).map fun p => ((pieces name, s) :: p.1, p.2)
      else none := by
  have form : bytesOf (Json.quoted name) ++ (0x3A :: (text ++ after)) =
      0x22 :: (bytesOf (name.toList.flatMap Json.escape) ++ 0x22 :: 0x3A :: (text ++ after)) := by
    rw [Json.quoted, bytesOf_cons, bytesOf_append, List.append_assoc, List.append_assoc]
    rfl
  rw [form, readMembers, skip_cons rfl]
  simp only [if_true, readPieces_quoted, Option.bind_eq_bind, Option.bind_some]
  rw [skip_cons rfl]
  simp only [if_true, spells fuel after enough stops, Option.bind_some, start]
  by_cases last : c = 0x7D
  · rw [if_pos last, if_pos last]
    rfl
  · rw [if_neg last, if_neg last]
    by_cases comma : c = 0x2C
    · rw [if_pos comma, if_pos comma]
      cases readMembers fuel rest <;> rfl
    · rw [if_neg comma, if_neg comma]

theorem readsMembers_last {text blanks : Bytes} {s : Spelling} (spells : Spells text s)
    (h : ∀ b ∈ blanks, isBlank b = true) (name : String) :
    ReadsMembers (bytesOf (Json.quoted name) ++ (0x3A :: (text ++ (blanks ++ [0x7D]))))
      [(pieces name, s)] := by
  intro fuel rest enough
  simp only [List.length_append, List.length_cons, List.length_nil] at enough
  cases fuel with
  | zero => omega
  | succ fuel =>
    have stops : Stops (blanks ++ (0x7D :: rest)) := stops_blanks h (stops_cons (by decide) rest)
    have last : skip (blanks ++ (0x7D :: rest)) = 0x7D :: rest := by
      rw [skip_blanks h, skip_cons rfl]
    have read := readMembers_member spells name (show 2 * text.length ≤ fuel by omega) stops last
    rw [if_pos rfl] at read
    simpa only [List.append_assoc, List.cons_append, List.nil_append] using read

theorem readsMembers_cons {text further : Bytes} {s : Spelling}
    {members : List (List Piece × Spelling)} (spells : Spells text s)
    (h : ReadsMembers further members) (name : String) :
    ReadsMembers (bytesOf (Json.quoted name) ++ (0x3A :: (text ++ 0x2C :: further)))
      ((pieces name, s) :: members) := by
  intro fuel rest enough
  simp only [List.length_append, List.length_cons] at enough
  cases fuel with
  | zero => omega
  | succ fuel =>
    have stops : Stops (0x2C :: (further ++ rest)) := stops_cons (by decide) _
    have comma : skip (0x2C :: (further ++ rest)) = 0x2C :: (further ++ rest) := skip_cons rfl _
    have read := readMembers_member spells name (show 2 * text.length ≤ fuel by omega) stops comma
    rw [if_neg (by decide), if_pos rfl, h fuel rest (by omega)] at read
    simpa only [List.append_assoc, List.cons_append, Option.map_some] using read

theorem ReadsMembers.blanks {blanks text : Bytes} {members : List (List Piece × Spelling)}
    (h : ∀ b ∈ blanks, isBlank b = true) (reads : ReadsMembers text members) :
    ReadsMembers (blanks ++ text) members := by
  intro fuel rest enough
  rw [List.length_append] at enough
  rw [List.append_assoc, readMembers_skip (skip_blanks h _)]
  exact reads fuel rest (by omega)


/-! ## Whole texts -/

theorem encode_ofList (text : List Char) : Utf8.encode (String.ofList text) = bytesOf text := by
  rw [Utf8.encode, String.toList_ofList, bytesOf]

/-- A text that is one value to its end is read as this value. -/
theorem Spells.read? {text : Bytes} {s : Spelling} (h : Spells text s) : read? text = some s := by
  have read := h (2 * text.length + 1) [] (by omega) stops_nil
  rw [List.append_nil] at read
  rw [Spelling.read?, read]
  rfl

end SnapshotStore.Spelling
