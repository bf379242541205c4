import Mathlib.Tactic.SplitIfs
import SnapshotStore.Snapshot.Cbor
import SnapshotStore.Snapshot.TaggedRecords

/-!
No reader of snapshots looks behind what it takes: what was read is read in the same way where more
follows it, and what follows is left as it is. Main statements: a field of tagged records
(`TaggedRecords.readField_append`), and an item in concise binary form, which needs no more fuel
either (`Cbor.readItem_append`).
-/

namespace SnapshotStore

theorem Bytes.splitAt?_append_of_eq_some {count : Nat} {s taken rest : Bytes}
    (h : splitAt? count s = some (taken, rest)) (more : Bytes) :
    splitAt? count (s ++ more) = some (taken, rest ++ more) := by
  obtain ⟨rfl, rfl⟩ := append_of_splitAt? h
  rw [List.append_assoc, splitAt?_append]

/-! ## Tagged records -/

namespace TaggedRecords

theorem readVarint_append {left n : Nat} {s rest : Bytes} (h : readVarint left s = some (n, rest))
    (more : Bytes) : readVarint left (s ++ more) = some (n, rest ++ more) := by
  fun_induction readVarint left s generalizing n rest with
  | case1 => cases h
  | case2 => cases h
  | case3 => cases h
  | case4 left b s last fits =>
    cases h
    rw [List.cons_append, readVarint, if_pos last, if_neg fits]
  | case5 left b s digit ih =>
    obtain ⟨⟨m, r⟩, read, eq⟩ := Option.map_eq_some_iff.1 h
    cases eq
    rw [List.cons_append, readVarint, if_neg digit, ih read]
    rfl

theorem readNumber_append {n : Nat} {s rest : Bytes} (h : readNumber s = some (n, rest))
    (more : Bytes) : readNumber (s ++ more) = some (n, rest ++ more) :=
  readVarint_append h more

theorem readKey_append {s rest : Bytes} {number : Nat} {wire : Wire}
    (h : readKey s = some (number, wire, rest)) (more : Bytes) :
    readKey (s ++ more) = some (number, wire, rest ++ more) := by
  rw [readKey] at h ⊢
  split at h
  · rename_i key r read
    rw [readNumber_append read more]
    split at h
    · rename_i fits
      obtain ⟨w, known, eq⟩ := Option.map_eq_some_iff.1 h
      cases eq
      simp only [if_pos fits, known, Option.map_some]
    · cases h
  · cases h

theorem readPayload_append {s bytes rest : Bytes} (h : readPayload s = some (bytes, rest))
    (more : Bytes) : readPayload (s ++ more) = some (bytes, rest ++ more) := by
  rw [readPayload] at h ⊢
  split at h
  · rename_i length r read
    rw [readNumber_append read more]
    exact Bytes.splitAt?_append_of_eq_some h more
  · cases h

theorem skipPlain_append {wire : Wire} {s rest : Bytes} (h : skipPlain wire s = some rest)
    (more : Bytes) : skipPlain wire (s ++ more) = some (rest ++ more) := by
  cases wire with
  | varint =>
    obtain ⟨⟨n, r⟩, read, rfl⟩ := Option.map_eq_some_iff.1 h
    rw [skipPlain, readNumber_append read more]
    rfl
  | fixed width =>
    obtain ⟨⟨taken, r⟩, read, rfl⟩ := Option.map_eq_some_iff.1 h
    rw [skipPlain, Bytes.splitAt?_append_of_eq_some read more]
    rfl
  | lengthDelimited =>
    obtain ⟨⟨bytes, r⟩, read, rfl⟩ := Option.map_eq_some_iff.1 h
    rw [skipPlain, readPayload_append read more]
    rfl
  | startGroup => cases h
  | endGroup => cases h

/-- Groups are skipped field by field. -/
theorem skipGroups_cons {levels innermost : Nat} {outer : List Nat} {s rest : Bytes} {number : Nat}
    {wire : Wire} (h : readKey s = some (number, wire, rest)) :
    skipGroups levels (innermost :: outer) s =
      if wire = .endGroup then
        if number = innermost then skipGroups levels outer rest else none
      else if levels ≤ (innermost :: outer).length then none
      else if wire = .startGroup then skipGroups levels (number :: innermost :: outer) rest
      else (skipPlain wire rest).bind (skipGroups levels (innermost :: outer)) := by
  rw [skipGroups]
  split
  · rename_i unread
    rw [h] at unread
    cases unread
  · rename_i key
    rw [h] at key
    cases key
    split_ifs
    · rfl
    · rfl
    · rfl
    · rfl
    · split <;> rename_i skipped <;> rw [skipped] <;> rfl

theorem skipGroups_append {levels : Nat} {groups : List Nat} {s rest : Bytes}
    (h : skipGroups levels groups s = some rest) (more : Bytes) :
    skipGroups levels groups (s ++ more) = some (rest ++ more) := by
  fun_induction skipGroups levels groups s generalizing rest with
  | case1 =>
    cases h
    rw [skipGroups]
  | case2 => cases h
  | case3 s outer number r key ih =>
    rw [skipGroups_cons (readKey_append key more), if_pos rfl, if_pos rfl]
    exact ih h
  | case4 => cases h
  | case5 => cases h
  | case6 s inner outer number r shallow key goesOn ih =>
    rw [skipGroups_cons (readKey_append key more), if_neg goesOn, if_neg shallow, if_pos rfl]
    exact ih h
  | case7 => cases h
  | case8 s inner outer number wire r key goesOn shallow plain r' skipped ih =>
    rw [skipGroups_cons (readKey_append key more), if_neg goesOn, if_neg shallow, if_neg plain,
      skipPlain_append skipped more]
    exact ih h

theorem readField_append {levels : Nat} {s rest : Bytes} {field : Field}
    (h : readField levels s = some (field, rest)) (more : Bytes) :
    readField levels (s ++ more) = some (field, rest ++ more) := by
  rw [readField] at h ⊢
  split at h
  · cases h
  · rename_i number wire r key
    rw [readKey_append key more]
    simp only
    split at h
    · obtain ⟨⟨bytes, r'⟩, read, eq⟩ := Option.map_eq_some_iff.1 h
      cases eq
      rw [readPayload_append read more]
      rfl
    · obtain ⟨r', skipped, eq⟩ := Option.map_eq_some_iff.1 h
      cases eq
      rw [skipGroups_append skipped more]
      rfl
    · obtain ⟨r', skipped, eq⟩ := Option.map_eq_some_iff.1 h
      cases eq
      rw [skipPlain_append skipped more]
      rfl

end TaggedRecords

/-! ## Concise binary form -/

namespace Cbor

theorem readHead_append {s rest : Bytes} {head : Head} (h : readHead s = some (head, rest))
    (more : Bytes) : readHead (s ++ more) = some (head, rest ++ more) := by
  cases s with
  | nil => cases h
  | cons b s =>
    -- The number of a head may stand in the bytes behind its first one.
    have wide : ∀ width : Nat, ((Bytes.splitAt? width s).map fun r =>
          ((⟨b.toNat / 32, b.toNat % 32, some (Bytes.toNat r.1)⟩ : Head), r.2)) =
            some (head, rest) →
        ((Bytes.splitAt? width (s ++ more)).map fun r =>
          ((⟨b.toNat / 32, b.toNat % 32, some (Bytes.toNat r.1)⟩ : Head), r.2)) =
            some (head, rest ++ more) := by
      intro width read
      obtain ⟨⟨digits, r⟩, split, eq⟩ := Option.map_eq_some_iff.1 read
      cases eq
      rw [Bytes.splitAt?_append_of_eq_some split more]
      rfl
    rw [List.cons_append]
    simp only [readHead] at h ⊢
    split_ifs at h ⊢
    · cases h
      rfl
    · exact wide 1 h
    · exact wide 2 h
    · exact wide 4 h
    · exact wide 8 h
    · cases h
      rfl

theorem readPieces_append {major fuel fuel' nesting : Nat} {s bytes rest : Bytes}
    (h : readPieces major fuel nesting s = some (bytes, rest)) (le : fuel ≤ fuel') (more : Bytes) :
    readPieces major fuel' nesting (s ++ more) = some (bytes, rest ++ more) := by
  induction fuel generalizing fuel' nesting s bytes with
  | zero => cases h
  | succ fuel ih =>
    obtain ⟨fuel', rfl⟩ := Nat.exists_eq_add_of_le' le
    have le : fuel ≤ fuel' + fuel := Nat.le_add_left fuel fuel'
    rw [readPieces] at h
    obtain ⟨⟨head, r⟩, read, onward⟩ := Option.bind_eq_some_iff.1 h
    show readPieces major (fuel' + fuel + 1) nesting (s ++ more) = _
    rw [readPieces, readHead_append read more]
    simp only [Option.bind_eq_bind, Option.bind_some] at onward ⊢
    split_ifs at onward ⊢
    · cases onward
      rfl
    · exact ih onward le
    · split at onward
      · exact ih onward le
      · obtain ⟨⟨piece, r'⟩, split, onward⟩ := Option.bind_eq_some_iff.1 onward
        rw [Bytes.splitAt?_append_of_eq_some split more, Option.bind_some]
        dsimp only at onward ⊢
        split_ifs at onward ⊢
        obtain ⟨⟨pieces, r''⟩, later, eq⟩ := Option.bind_eq_some_iff.1 onward
        cases eq
        rw [ih later le]
        rfl

theorem readString_append {fuel fuel' major : Nat} {argument : Option Nat} {s bytes rest : Bytes}
    (h : readString fuel major argument s = some (bytes, rest)) (le : fuel ≤ fuel')
    (more : Bytes) :
    readString fuel' major argument (s ++ more) = some (bytes, rest ++ more) := by
  cases argument with
  | none => exact readPieces_append h le more
  | some length =>
    obtain ⟨⟨taken, r⟩, split, onward⟩ := Option.bind_eq_some_iff.1 h
    rw [readString, Bytes.splitAt?_append_of_eq_some split more]
    simp only [Option.bind_eq_bind, Option.bind_some] at onward ⊢
    split_ifs at onward ⊢
    cases onward
    rfl

theorem numberLength?_append {tag length : Nat} {s rest : Bytes}
    (h : numberLength? tag s = some (length, rest)) (more : Bytes) :
    numberLength? tag (s ++ more) = some (length, rest ++ more) := by
  rw [numberLength?] at h ⊢
  split_ifs at h ⊢
  split at h
  · rename_i read
    rw [readHead_append read]
    simp only
    split_ifs at h ⊢
    cases h
    rfl
  · cases h

/-- Whether a short number follows a tag is seen from the head behind it. -/
theorem numberLength?_append_of_eq_none {tag : Nat} {s rest : Bytes} {head : Head}
    (h : numberLength? tag s = none) (next : readHead s = some (head, rest)) (more : Bytes) :
    numberLength? tag (s ++ more) = none := by
  rw [numberLength?] at h ⊢
  rw [next] at h
  rw [readHead_append next]
  split_ifs at h ⊢
  · split at h
    · rename_i eq
      cases eq
      simp only
      split_ifs at h ⊢
      rfl
    · rename_i other
      split
      · rename_i eq
        cases eq
        exact absurd rfl (other _ _ _)
      · rfl
  · rfl

/-- No item looks behind itself, nor does it need more fuel once it is read. -/
structure ReadsOnward (fuel : Nat) : Prop where
  item : ∀ {fuel' levels s item rest}, readItem fuel levels s = some (item, rest) → fuel ≤ fuel' →
    ∀ more, readItem fuel' levels (s ++ more) = some (item, rest ++ more)
  items : ∀ {fuel' levels count s items rest}, readItems fuel levels count s = some (items, rest) →
    fuel ≤ fuel' → ∀ more, readItems fuel' levels count (s ++ more) = some (items, rest ++ more)
  openItems : ∀ {fuel' levels s items rest}, readOpen fuel levels s = some (items, rest) →
    fuel ≤ fuel' → ∀ more, readOpen fuel' levels (s ++ more) = some (items, rest ++ more)
  openMap : ∀ {fuel' levels s rest}, readOpenMap fuel levels s = some rest →
    fuel ≤ fuel' → ∀ more, readOpenMap fuel' levels (s ++ more) = some (rest ++ more)

/-- A head behind which an item can be read. -/
theorem exists_head {fuel levels : Nat} {s rest : Bytes} {item : Item}
    (h : readItem fuel levels s = some (item, rest)) : ∃ head r, readHead s = some (head, r) := by
  cases fuel with
  | zero =>
    rw [readItem] at h
    cases h
  | succ fuel =>
    cases read : readHead s with
    | none =>
      rw [readItem, read] at h
      cases h
    | some r => exact ⟨r.1, r.2, rfl⟩

theorem readsOnward_items {fuel : Nat} (ih : ReadsOnward fuel) {fuel' levels count : Nat}
    {s rest : Bytes} {items : List Item}
    (h : readItems (fuel + 1) levels count s = some (items, rest)) (le : fuel ≤ fuel')
    (more : Bytes) :
    readItems (fuel' + 1) levels count (s ++ more) = some (items, rest ++ more) := by
  cases count with
  | zero =>
    rw [readItems] at h ⊢
    cases h
    rfl
  | succ count =>
    rw [readItems] at h ⊢
    split at h
    · cases h
    · rename_i item r read
      obtain ⟨⟨others, r'⟩, later, eq⟩ := Option.map_eq_some_iff.1 h
      cases eq
      rw [ih.item read le]
      simp only [ih.items later le, Option.map_some]

theorem readsOnward_openItems {fuel : Nat} (ih : ReadsOnward fuel) {fuel' levels : Nat}
    {s rest : Bytes} {items : List Item}
    (h : readOpen (fuel + 1) levels s = some (items, rest)) (le : fuel ≤ fuel') (more : Bytes) :
    readOpen (fuel' + 1) levels (s ++ more) = some (items, rest ++ more) := by
  rw [readOpen] at h ⊢
  split at h
  · cases h
  · rename_i head r read
    rw [readHead_append read more]
    simp only
    split_ifs at h ⊢
    · cases h
      rfl
    · split at h
      · cases h
      · rename_i item r' first
        obtain ⟨⟨others, r''⟩, later, eq⟩ := Option.map_eq_some_iff.1 h
        cases eq
        rw [ih.item first le]
        simp only [ih.openItems later le, Option.map_some]

theorem readsOnward_openMap {fuel : Nat} (ih : ReadsOnward fuel) {fuel' levels : Nat}
    {s rest : Bytes} (h : readOpenMap (fuel + 1) levels s = some rest) (le : fuel ≤ fuel')
    (more : Bytes) : readOpenMap (fuel' + 1) levels (s ++ more) = some (rest ++ more) := by
  rw [readOpenMap] at h ⊢
  split at h
  · cases h
  · rename_i head r read
    rw [readHead_append read more]
    simp only
    split_ifs at h ⊢
    · cases h
      rfl
    · split at h
      · cases h
      · rename_i key r' first
        rw [ih.item first le]
        simp only
        split at h
        · cases h
        · rename_i value r'' second
          rw [ih.item second le]
          exact ih.openMap h le more

/-- What is inside an array, of a known number of items or up to a mark. -/
theorem ReadsOnward.array {fuel fuel' levels : Nat} (ih : ReadsOnward fuel) {argument : Option Nat}
    {s rest : Bytes} {items : List Item} (le : fuel ≤ fuel') (more : Bytes) :
    (match argument with
      | some count => readItems fuel levels count s
      | none => readOpen fuel levels s) = some (items, rest) →
    (match argument with
      | some count => readItems fuel' levels count (s ++ more)
      | none => readOpen fuel' levels (s ++ more)) = some (items, rest ++ more) := by
  intro h
  cases argument with
  | none => exact ih.openItems h le more
  | some count => exact ih.items h le more

/-- What is inside a map, of a known number of pairs or up to a mark. -/
theorem ReadsOnward.map {fuel fuel' levels : Nat} (ih : ReadsOnward fuel) {argument : Option Nat}
    {s rest : Bytes} (le : fuel ≤ fuel') (more : Bytes) :
    (match argument with
      | some count => (readItems fuel levels (2 * count) s).map fun (_, rest) => rest
      | none => readOpenMap fuel levels s) = some rest →
    (match argument with
      | some count => (readItems fuel' levels (2 * count) (s ++ more)).map fun (_, rest) => rest
      | none => readOpenMap fuel' levels (s ++ more)) = some (rest ++ more) := by
  intro h
  cases argument with
  | none => exact ih.openMap h le more
  | some count =>
    obtain ⟨⟨items, r⟩, pairs, eq⟩ := Option.map_eq_some_iff.1 h
    cases eq
    simp only [ih.items pairs le, Option.map_some]

theorem readsOnward_item {fuel : Nat} (ih : ReadsOnward fuel) {fuel' levels : Nat}
    {s rest : Bytes} {item : Item} (h : readItem (fuel + 1) levels s = some (item, rest))
    (le : fuel ≤ fuel') (more : Bytes) :
    readItem (fuel' + 1) levels (s ++ more) = some (item, rest ++ more) := by
  rw [readItem] at h ⊢
  split at h
  · cases h
  · rename_i head r read
    rw [readHead_append read more]
    simp only
    split at h
    · cases h
      rfl
    · cases h
      rfl
    · obtain ⟨⟨bytes, r'⟩, string, eq⟩ := Option.map_eq_some_iff.1 h
      cases eq
      rw [readString_append string le more]
      rfl
    · obtain ⟨⟨bytes, r'⟩, string, eq⟩ := Option.map_eq_some_iff.1 h
      cases eq
      rw [readString_append string le more]
      rfl
    · -- An array.
      cases levels with
      | zero => cases h
      | succ levels =>
        obtain ⟨⟨items, r'⟩, inside, eq⟩ := Option.map_eq_some_iff.1 h
        cases eq
        exact Option.map_eq_some_iff.2 ⟨_, ih.array le more inside, rfl⟩
    · -- A map.
      cases levels with
      | zero => cases h
      | succ levels =>
        obtain ⟨r', inside, eq⟩ := Option.map_eq_some_iff.1 h
        cases eq
        exact Option.map_eq_some_iff.2 ⟨_, ih.map le more inside, rfl⟩
    · -- A tag.
      rename_i tag _ _
      split at h
      · rename_i length r' short
        obtain ⟨⟨digits, r''⟩, split, onward⟩ := Option.bind_eq_some_iff.1 h
        rw [numberLength?_append short more]
        simp only [Bytes.splitAt?_append_of_eq_some split more, Option.bind_eq_bind,
          Option.bind_some] at onward ⊢
        split_ifs at onward ⊢
        cases onward
        rfl
      · rename_i plain
        cases levels with
        | zero => cases h
        | succ levels =>
          obtain ⟨⟨inner, r'⟩, inside, eq⟩ := Option.map_eq_some_iff.1 h
          cases eq
          obtain ⟨head', r'', next⟩ := exists_head inside
          rw [numberLength?_append_of_eq_none plain next more]
          simp only [ih.item inside le, Option.map_some]
    · split_ifs at h ⊢
      cases h
      rfl
    · cases h

theorem readsOnward (fuel : Nat) : ReadsOnward fuel := by
  induction fuel with
  | zero =>
    refine ⟨fun h _ _ => ?_, fun {_ _ count _ _ _} h _ _ => ?_, fun h _ _ => ?_, fun h _ _ => ?_⟩
    · rw [readItem] at h
      cases h
    · cases count with
      | zero =>
        rw [readItems] at h ⊢
        cases h
        rfl
      | succ count =>
        rw [readItems] at h
        cases h
    · rw [readOpen] at h
      cases h
    · rw [readOpenMap] at h
      cases h
  | succ fuel ih =>
    refine ⟨fun {fuel' _ _ _ _} h le more => ?_, fun {fuel' _ _ _ _ _} h le more => ?_,
      fun {fuel' _ _ _ _} h le more => ?_, fun {fuel' _ _ _} h le more => ?_⟩
    all_goals obtain ⟨fuel', rfl⟩ := Nat.exists_eq_succ_of_ne_zero (Nat.ne_zero_of_lt le)
    · exact readsOnward_item ih h (Nat.le_of_succ_le_succ le) more
    · exact readsOnward_items ih h (Nat.le_of_succ_le_succ le) more
    · exact readsOnward_openItems ih h (Nat.le_of_succ_le_succ le) more
    · exact readsOnward_openMap ih h (Nat.le_of_succ_le_succ le) more

/-- An item is read in the same way where more follows it. -/
theorem readItem_append {fuel fuel' levels : Nat} {s rest : Bytes} {item : Item}
    (h : readItem fuel levels s = some (item, rest)) (le : fuel ≤ fuel') (more : Bytes) :
    readItem fuel' levels (s ++ more) = some (item, rest ++ more) :=
  (readsOnward fuel).item h le more

end Cbor

end SnapshotStore
