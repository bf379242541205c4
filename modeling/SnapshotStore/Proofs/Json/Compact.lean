import SnapshotStore.Codec.Value
import SnapshotStore.Proofs.Json.Numbers
import SnapshotStore.Proofs.OrderedMap

/-!
Compact text read back. Each value has one spelling as which its compact text is read
(`Json.read?_render`), and a value whose parts a reader has room for is what its spelling means
(`Json.Proper.value?_spelling`), unless it is nested too deep (`Json.value?_of_deep`).
-/

namespace SnapshotStore

namespace Json

/-! ## Induction -/

/-- What holds of a value if it holds of its parts holds of all values. -/
@[elab_as_elim]
theorem induct {motive : Json → Prop} (null : motive .null) (bool : ∀ b, motive (.bool b))
    (number : ∀ n, motive (.number n)) (string : ∀ text, motive (.string text))
    (array : ∀ items, (∀ v ∈ items, motive v) → motive (.array items))
    (object : ∀ members, (∀ m ∈ members, motive m.2) → motive (.object members)) (v : Json) :
    motive v :=
  Json.rec (motive_1 := motive) (motive_2 := fun items => ∀ v ∈ items, motive v)
    (motive_3 := fun members => ∀ m ∈ members, motive m.2) (motive_4 := fun m => motive m.2)
    null bool number string array object
    (fun _ none => absurd none List.not_mem_nil)
    (fun _ _ first others => List.forall_mem_cons.2 ⟨first, others⟩)
    (fun _ none => absurd none List.not_mem_nil)
    (fun _ _ first others => List.forall_mem_cons.2 ⟨first, others⟩)
    (fun _ _ value => value) v

/-! ## Spelling -/

open Spelling (pieces)

mutual

/-- How the text of a value spells it. -/
def spelling : Json → Spelling
  | .null => .null
  | .bool b => .bool b
  | .number n => .number n.numeral
  | .string text => .string (pieces text)
  | .array items => .array (spellings items)
  | .object members => .object (memberSpellings members)

/-- How the texts of items spell them. -/
def spellings : List Json → List Spelling
  | [] => []
  | v :: rest => v.spelling :: spellings rest

/-- How the texts of members spell them. -/
def memberSpellings : List (String × Json) → List (List Piece × Spelling)
  | [] => []
  | (name, v) :: rest => (pieces name, v.spelling) :: memberSpellings rest

end

end Json

namespace Spelling

open Json

/-! ## Reading -/

/-- Whether the compact text of a value is read as its spelling. -/
def IsRead (v : Json) : Prop := Spells (bytesOf v.compact) v.spelling

theorem reads_bool (b : Bool) : Reads (bytesOf (Json.bool b).compact) (.bool b) := by
  intro fuel rest enough
  cases fuel with
  | zero => cases b <;> exact absurd enough (by decide)
  | succ fuel => cases b <;> rfl

theorem reads_null : Reads (bytesOf Json.null.compact) .null := by
  intro fuel rest enough
  cases fuel with
  | zero => exact absurd enough (by decide)
  | succ fuel => rfl

theorem readsItems_compact {v : Json} {vs : List Json} (first : IsRead v)
    (others : ∀ w ∈ vs, IsRead w) :
    ReadsItems (bytesOf (v.compact ++ compactItems vs ++ [']'])) (v.spelling :: spellings vs) := by
  have comma : String.utf8EncodeChar ',' = [0x2C] := rfl
  have closing : String.utf8EncodeChar ']' = [0x5D] := rfl
  induction vs generalizing v with
  | nil =>
    have read := readsItems_last first (show ∀ b ∈ [], isBlank b = true from nofun)
    simpa [compactItems, spellings, closing] using read
  | cons w vs ih =>
    obtain ⟨next, others⟩ := List.forall_mem_cons.1 others
    have read := readsItems_cons first (ih next others)
    simpa [compactItems, spellings, comma, closing] using read

theorem readsMembers_compact {m : String × Json} {ms : List (String × Json)} (first : IsRead m.2)
    (others : ∀ n ∈ ms, IsRead n.2) :
    ReadsMembers (bytesOf (quoted m.1 ++ ':' :: (m.2.compact ++ compactMembers ms ++ ['\x7d'])))
      ((pieces m.1, m.2.spelling) :: memberSpellings ms) := by
  have colon : String.utf8EncodeChar ':' = [0x3A] := rfl
  have comma : String.utf8EncodeChar ',' = [0x2C] := rfl
  have closing : String.utf8EncodeChar '\x7d' = [0x7D] := rfl
  induction ms generalizing m with
  | nil =>
    have read := readsMembers_last first (show ∀ b ∈ [], isBlank b = true from nofun) m.1
    simpa [compactMembers, memberSpellings, colon, closing] using read
  | cons n ms ih =>
    obtain ⟨next, others⟩ := List.forall_mem_cons.1 others
    have read := readsMembers_cons first (ih next others) m.1
    simpa [compactMembers, memberSpellings, colon, comma, closing] using read

theorem isRead (v : Json) : IsRead v := by
  have opening : String.utf8EncodeChar '[' = [0x5B] ∧ String.utf8EncodeChar '\x7b' = [0x7B] :=
    ⟨rfl, rfl⟩
  induction v using Json.induct with
  | null => exact reads_null.spells
  | bool b => exact (reads_bool b).spells
  | number n =>
    unfold IsRead compact
    exact spells_number n
  | string text =>
    unfold IsRead compact
    exact (reads_string text).spells
  | array items parts =>
    unfold IsRead
    cases items with
    | nil =>
      unfold compact
      exact reads_emptyArray.spells
    | cons v vs =>
      obtain ⟨first, others⟩ := List.forall_mem_cons.1 parts
      rw [compact, bytesOf_cons, opening.1]
      exact (reads_array_of_items (readsItems_compact first others)).spells
  | object members parts =>
    unfold IsRead
    cases members with
    | nil =>
      unfold compact
      exact reads_emptyObject.spells
    | cons m ms =>
      obtain ⟨first, others⟩ := List.forall_mem_cons.1 parts
      rw [compact, bytesOf_cons, opening.2]
      exact (reads_object_of_members (readsMembers_compact first others)).spells

/-- A compact text is read as the spelling of its value. -/
theorem read?_render (v : Json) : read? (Utf8.encode v.render) = some v.spelling := by
  rw [render, encode_ofList]
  exact (isRead v).read?

end Spelling

namespace Json

/-! ## Meaning -/

mutual

/-- How many arrays and objects stand around the innermost part of a value. -/
def depth : Json → Nat
  | .array items => depthItems items + 1
  | .object members => depthMembers members + 1
  | _ => 0

/-- The greatest depth of items. -/
def depthItems : List Json → Nat
  | [] => 0
  | v :: rest => max v.depth (depthItems rest)

/-- The greatest depth of members. -/
def depthMembers : List (String × Json) → Nat
  | [] => 0
  | (_, v) :: rest => max v.depth (depthMembers rest)

end

/-- A value that is written as it would be read: its numbers are those that a reader has room for,
and the members of its objects are in order of names, no two of one name. -/
inductive Proper : Json → Prop
  | null : Proper .null
  | bool (b : Bool) : Proper (.bool b)
  | number {n : Number} (fits : n.Fits) : Proper (.number n)
  | string (text : String) : Proper (.string text)
  | array {items : List Json} (parts : ∀ v ∈ items, Proper v) : Proper (.array items)
  | object {members : List (String × Json)} (sorted : members.Pairwise fun a b => a.1 < b.1)
    (parts : ∀ m ∈ members, Proper m.2) : Proper (.object members)

open Spelling

theorem items?_spellings {levels : Nat} {items : List Json} (deep : depthItems items ≤ levels)
    (parts : ∀ v ∈ items, v.depth ≤ levels → value? levels v.spelling = some v) :
    items? levels (spellings items) = some items := by
  induction items with
  | nil => rfl
  | cons v items ih =>
    obtain ⟨first, others⟩ := List.forall_mem_cons.1 parts
    rw [depthItems] at deep
    rw [spellings, items?, first (by omega), ih (by omega) others]
    rfl

theorem members?_spellings {levels : Nat} {members : List (String × Json)}
    (deep : depthMembers members ≤ levels)
    (parts : ∀ m ∈ members, m.2.depth ≤ levels → value? levels m.2.spelling = some m.2) :
    members? levels (memberSpellings members) = some members := by
  induction members with
  | nil => rfl
  | cons m members ih =>
    obtain ⟨name, v⟩ := m
    obtain ⟨first, others⟩ := List.forall_mem_cons.1 parts
    rw [depthMembers] at deep
    rw [memberSpellings, members?, piecesText?_pieces, first (by show v.depth ≤ levels; omega),
      ih (by omega) others]
    rfl

/-- What a proper value is spelled as means this value, if it is not too deep. -/
theorem Proper.value?_spelling {v : Json} (h : v.Proper) {levels : Nat} (deep : v.depth ≤ levels) :
    value? levels v.spelling = some v := by
  induction h generalizing levels with
  | null => rw [spelling, value?]
  | bool b => rw [spelling, value?]
  | number fits =>
    rw [spelling, value?, Number.number?_numeral fits]
    rfl
  | string text =>
    rw [spelling, value?, piecesText?_pieces]
    rfl
  | array parts ih =>
    cases levels with
    | zero => exact absurd deep (Nat.not_succ_le_zero _)
    | succ levels =>
      rw [depth] at deep
      rw [spelling, value?, items?_spellings (by omega) fun v hv le => ih v hv le]
      rfl
  | @object members sorted parts ih =>
    cases levels with
    | zero => exact absurd deep (Nat.not_succ_le_zero _)
    | succ levels =>
      rw [depth] at deep
      have ordered : OrderedMap.ofList members = ⟨members, sorted⟩ :=
        OrderedMap.ofList_toList ⟨members, sorted⟩
      rw [spelling, value?, members?_spellings (by omega) fun m hm le => ih m hm le,
        Option.map_some, ofMembers, ordered]

/-- Items of which one is too deep mean nothing. -/
theorem items?_of_deep {levels : Nat} {items : List Json} (deep : levels < depthItems items)
    (parts : ∀ v ∈ items, levels < v.depth → value? levels v.spelling = none) :
    items? levels (spellings items) = none := by
  induction items with
  | nil => exact absurd deep (Nat.not_lt_zero _)
  | cons v items ih =>
    obtain ⟨first, others⟩ := List.forall_mem_cons.1 parts
    rw [depthItems] at deep
    rw [spellings, items?]
    rcases (by omega : levels < v.depth ∨ levels < depthItems items) with deep | deep
    · rw [first deep]
      rfl
    · rw [ih deep others]
      cases value? levels v.spelling <;> rfl

theorem members?_of_deep {levels : Nat} {members : List (String × Json)}
    (deep : levels < depthMembers members)
    (parts : ∀ m ∈ members, levels < m.2.depth → value? levels m.2.spelling = none) :
    members? levels (memberSpellings members) = none := by
  induction members with
  | nil => exact absurd deep (Nat.not_lt_zero _)
  | cons m members ih =>
    obtain ⟨name, v⟩ := m
    obtain ⟨first, others⟩ := List.forall_mem_cons.1 parts
    rw [depthMembers] at deep
    rw [memberSpellings, members?, piecesText?_pieces]
    rcases (by omega : levels < v.depth ∨ levels < depthMembers members) with deep | deep
    · rw [first deep]
      rfl
    · rw [ih deep others]
      cases value? levels v.spelling <;> rfl

/-- What a value is spelled as means nothing to a reader that may not go so deep. -/
theorem value?_of_deep {v : Json} {levels : Nat} (deep : levels < v.depth) :
    value? levels v.spelling = none := by
  induction v using Json.induct generalizing levels with
  | null | bool b | number n | string text => exact absurd deep (Nat.not_lt_zero _)
  | array items parts =>
    rw [depth] at deep
    cases levels with
    | zero => rw [spelling, value?]
    | succ levels =>
      rw [spelling, value?, items?_of_deep (by omega) fun v hv lt => parts v hv lt]
      rfl
  | object members parts =>
    rw [depth] at deep
    cases levels with
    | zero => rw [spelling, value?]
    | succ levels =>
      rw [spelling, value?, members?_of_deep (by omega) fun m hm lt => parts m hm lt]
      rfl

/-- The names of members are those that were written. -/
theorem named?_memberSpellings (members : List (String × Json)) :
    named? (memberSpellings members) = some (members.map fun m => (m.1, m.2.spelling)) := by
  induction members with
  | nil => rfl
  | cons m members ih =>
    rw [memberSpellings, named?, piecesText?_pieces, ih]
    rfl

end Json

end SnapshotStore
