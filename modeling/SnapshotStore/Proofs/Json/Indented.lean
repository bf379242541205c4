import Mathlib.Data.List.Forall2
import SnapshotStore.Proofs.Json.Reading

/-!
Indented text read back. Texts in quotes, arrays and objects are read when their parts are
(`readsAt_string`, `readsAt_array`, `readsAt_object`), however deep they are nested.
-/

namespace SnapshotStore.Spelling

/-- The line end and the blanks before an item or a member. -/
theorem lineEnd (level : Nat) : ∀ b ∈ bytesOf (Json.newLine level), isBlank b = true := by
  intro b h
  obtain ⟨c, mem, hb⟩ := List.mem_flatMap.1 h
  rcases List.mem_cons.1 mem with rfl | mem
  · rw [show b = 0x0A from List.mem_singleton.1 hb]
    rfl
  · rw [List.eq_of_mem_replicate mem] at hb
    rw [show b = 0x20 from List.mem_singleton.1 hb]
    rfl

/-- Whether the indented text of a value is read as a spelling. -/
def ReadsAt (level : Nat) (v : Json) (s : Spelling) : Prop :=
  Reads (bytesOf (v.indented level)) s

theorem readsAt_string (level : Nat) (text : String) :
    ReadsAt level (.string text) (.string (pieces text)) := by
  unfold ReadsAt Json.indented
  exact reads_string text

theorem readsItems_indented {level outer : Nat} {v : Json} {vs : List Json} {s : Spelling}
    {items : List Spelling} (first : ReadsAt level v s)
    (others : List.Forall₂ (ReadsAt level) vs items) :
    ReadsItems (bytesOf (Json.newLine level ++ v.indented level ++ Json.indentedItems level vs ++
      Json.newLine outer ++ [']'])) (s :: items) := by
  have comma : String.utf8EncodeChar ',' = [0x2C] := rfl
  have closing : String.utf8EncodeChar ']' = [0x5D] := rfl
  induction others generalizing v s with
  | nil =>
    have read := readsItems_last (first.spells.blanks (lineEnd level)) (lineEnd outer)
    simpa [Json.indentedItems, closing] using read
  | cons next _ ih =>
    have read := readsItems_cons (first.spells.blanks (lineEnd level)) (ih next)
    simpa [Json.indentedItems, comma, closing] using read

theorem readsAt_array {level : Nat} {vs : List Json} {items : List Spelling}
    (h : List.Forall₂ (ReadsAt (level + 1)) vs items) : ReadsAt level (.array vs) (.array items) := by
  have opening : String.utf8EncodeChar '[' = [0x5B] := rfl
  unfold ReadsAt Json.indented
  cases h with
  | nil => exact reads_emptyArray
  | cons first others =>
    rw [bytesOf_cons, opening]
    exact reads_array_of_items (readsItems_indented first others)

/-- Whether the name and the value of a member are read as those of another. -/
def ReadsMember (level : Nat) (m : String × Json) (s : List Piece × Spelling) : Prop :=
  s.1 = pieces m.1 ∧ ReadsAt level m.2 s.2

/-- The blank before the value of a member. -/
theorem afterColon {level : Nat} {v : Json} {s : Spelling} (h : ReadsAt level v s) :
    Spells (0x20 :: bytesOf (v.indented level)) s :=
  h.spells.blanks (show ∀ b ∈ [0x20], isBlank b = true by simp [isBlank])

theorem readsMembers_indented {level outer : Nat} {m : String × Json} {ms : List (String × Json)}
    {s : List Piece × Spelling} {members : List (List Piece × Spelling)}
    (first : ReadsMember level m s) (others : List.Forall₂ (ReadsMember level) ms members) :
    ReadsMembers (bytesOf (Json.newLine level ++ Json.quoted m.1 ++ ':' :: ' ' ::
      (m.2.indented level ++ Json.indentedMembers level ms ++ Json.newLine outer ++ ['\x7d'])))
      (s :: members) := by
  have colon : String.utf8EncodeChar ':' = [0x3A] := rfl
  have blank : String.utf8EncodeChar ' ' = [0x20] := rfl
  have comma : String.utf8EncodeChar ',' = [0x2C] := rfl
  have closing : String.utf8EncodeChar '\x7d' = [0x7D] := rfl
  induction others generalizing m s with
  | nil =>
    obtain ⟨name, value⟩ := s
    obtain ⟨rfl, first⟩ := first
    have read := (readsMembers_last (afterColon first) (lineEnd outer) m.1).blanks (lineEnd level)
    simpa [Json.indentedMembers, colon, blank, closing] using read
  | cons next _ ih =>
    obtain ⟨name, value⟩ := s
    obtain ⟨rfl, first⟩ := first
    have read := (readsMembers_cons (afterColon first) (ih next) m.1).blanks (lineEnd level)
    simpa [Json.indentedMembers, colon, blank, comma, closing] using read

theorem readsAt_object {level : Nat} {ms : List (String × Json)}
    {members : List (List Piece × Spelling)}
    (h : List.Forall₂ (ReadsMember (level + 1)) ms members) :
    ReadsAt level (.object ms) (.object members) := by
  have opening : String.utf8EncodeChar '\x7b' = [0x7B] := rfl
  unfold ReadsAt Json.indented
  cases h with
  | nil => exact reads_emptyObject
  | cons first others =>
    rw [bytesOf_cons, opening]
    exact reads_object_of_members (readsMembers_indented first others)

/-- An indented text is read as the spelling of its value. -/
theorem read?_renderIndented {v : Json} {s : Spelling} (h : ReadsAt 0 v s) :
    read? (Utf8.encode v.renderIndented) = some s := by
  rw [Json.renderIndented, encode_ofList, (Reads.spells h).read?]

end SnapshotStore.Spelling
