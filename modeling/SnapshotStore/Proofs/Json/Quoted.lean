import SnapshotStore.Json.Spelling
import SnapshotStore.Json.Value
import SnapshotStore.Proofs.Text.Utf8

/-!
Texts in quotes. The bytes between the quotes are read as pieces, character by character, and the
pieces stand for the text that was written (`readPieces_quoted`, `piecesText?_pieces`).
-/

namespace SnapshotStore.Spelling

/-- The bytes of characters. -/
def bytesOf (s : List Char) : Bytes := s.flatMap String.utf8EncodeChar

@[simp] theorem bytesOf_nil : bytesOf [] = [] := rfl

@[simp] theorem bytesOf_cons (c : Char) (s : List Char) :
    bytesOf (c :: s) = String.utf8EncodeChar c ++ bytesOf s := rfl

@[simp] theorem bytesOf_append (s t : List Char) : bytesOf (s ++ t) = bytesOf s ++ bytesOf t :=
  List.flatMap_append

/-- The pieces by which a character is written. -/
def charPieces (c : Char) : List Piece :=
  if c ∈ ['"', '\\', '\x08', '\x0c', '\n', '\r', '\t'] then [.escaped (UInt8.ofNat c.toNat)]
  else if c.toNat < 0x20 then [.unit c.toNat]
  else (String.utf8EncodeChar c).map .byte

/-- The pieces by which a text is written. -/
def pieces (text : String) : List Piece := text.toList.flatMap charPieces

/-! ## Characters -/

/-- A byte that stands for itself between quotes. -/
def StandsAlone (b : UInt8) : Prop := b ≠ 0x22 ∧ b ≠ 0x5C ∧ ¬b < 0x20

theorem standsAlone_ofNat {n : Nat} (h : 0x20 ≤ n) (small : n < 256) (quote : n ≠ 0x22)
    (backslash : n ≠ 0x5C) : StandsAlone (UInt8.ofNat n) := by
  have value : (UInt8.ofNat n).toNat = n := by
    rw [UInt8.toNat_ofNat']
    omega
  refine ⟨?_, ?_, ?_⟩
  · intro e
    rw [e] at value
    exact quote value.symm
  · intro e
    rw [e] at value
    exact backslash value.symm
  · intro lt
    rw [UInt8.lt_iff_toNat_lt, value] at lt
    exact absurd lt (Nat.not_lt.2 h)

/-- The bytes of a character that is not escaped stand for themselves. -/
theorem standsAlone_of_mem {c : Char} (h : 0x20 ≤ c.toNat) (quote : c ≠ '"')
    (backslash : c ≠ '\\') {b : UInt8} (hb : b ∈ String.utf8EncodeChar c) : StandsAlone b := by
  have hq : c.val.toNat ≠ 0x22 := fun e => quote (Char.toNat_inj.1 e)
  have hs : c.val.toNat ≠ 0x5C := fun e => backslash (Char.toNat_inj.1 e)
  have hc : 0x20 ≤ c.val.toNat := h
  rw [String.utf8EncodeChar] at hb
  generalize c.val.toNat = v at hb hq hs hc
  split at hb
  · rw [List.mem_singleton.1 hb]
    exact standsAlone_ofNat hc (by omega) hq hs
  · split at hb
    · simp only [List.mem_cons, List.not_mem_nil, or_false] at hb
      rcases hb with rfl | rfl <;> exact standsAlone_ofNat (by omega) (by omega) (by omega) (by omega)
    · split at hb
      · simp only [List.mem_cons, List.not_mem_nil, or_false] at hb
        rcases hb with rfl | rfl | rfl <;>
          exact standsAlone_ofNat (by omega) (by omega) (by omega) (by omega)
      · simp only [List.mem_cons, List.not_mem_nil, or_false] at hb
        rcases hb with rfl | rfl | rfl | rfl <;>
          exact standsAlone_ofNat (by omega) (by omega) (by omega) (by omega)

theorem readPieces_byte {b : UInt8} (h : StandsAlone b) (s : Bytes) :
    readPieces (b :: s) = (readPieces s).map fun p => (.byte b :: p.1, p.2) := by
  obtain ⟨quote, backslash, control⟩ := h
  rw [readPieces.eq_def]
  simp only [if_neg quote, if_neg backslash, if_neg control]
  cases readPieces s <;> rfl

theorem readPieces_bytes {bytes : Bytes} (h : ∀ b ∈ bytes, StandsAlone b) (s : Bytes) :
    readPieces (bytes ++ s) =
      (readPieces s).map fun p => (bytes.map Piece.byte ++ p.1, p.2) := by
  induction bytes with
  | nil => exact Option.map_id.symm ▸ rfl
  | cons b bytes ih =>
    rw [List.cons_append, readPieces_byte (h b (List.mem_cons_self ..)),
      ih fun b hb => h b (List.mem_cons_of_mem _ hb), Option.map_map]
    rfl

theorem readPieces_escaped {e b : UInt8} (notUnit : e ≠ 0x75) (h : escapedByte? e = some b)
    (s : Bytes) :
    readPieces (0x5C :: e :: s) = (readPieces s).map fun p => (.escaped b :: p.1, p.2) := by
  rw [readPieces.eq_def]
  simp only [if_neg (show ¬(0x5C : UInt8) = 0x22 by decide), if_true, if_neg notUnit, h]
  cases readPieces s <;> rfl

theorem readPieces_unit {n : Nat} (h : n < 0x20) (s : Bytes) :
    readPieces (bytesOf ['\\', 'u', '0', '0', Hex.digit (n / 16), Hex.digit (n % 16)] ++ s) =
      (readPieces s).map fun p => (.unit n :: p.1, p.2) := by
  have digits : ∀ k : Fin 0x20,
      bytesOf [Hex.digit (k.val / 16), Hex.digit (k.val % 16)] =
          [UInt8.ofNat (Hex.digit (k.val / 16)).toNat, UInt8.ofNat (Hex.digit (k.val % 16)).toNat] ∧
        hexDigit? (UInt8.ofNat (Hex.digit (k.val / 16)).toNat) = some (k.val / 16) ∧
        hexDigit? (UInt8.ofNat (Hex.digit (k.val % 16)).toNat) = some (k.val % 16) := by decide
  obtain ⟨text, high, low⟩ := digits ⟨n, h⟩
  have zero : hexDigit? 0x30 = some 0 := by decide
  have whole : ((0 * 16 + 0) * 16 + n / 16) * 16 + n % 16 = n := by omega
  show readPieces (0x5C :: 0x75 :: 0x30 :: 0x30 ::
    (bytesOf [Hex.digit (n / 16), Hex.digit (n % 16)] ++ s)) = _
  rw [text, readPieces.eq_def]
  simp only [if_neg (show ¬(0x5C : UInt8) = 0x22 by decide), if_true, List.cons_append,
    List.nil_append, zero, high, low, Option.bind_eq_bind, Option.bind_some, whole]
  cases readPieces s <;> rfl

/-- A character is read as its pieces. -/
theorem readPieces_escape (c : Char) (s : Bytes) :
    readPieces (bytesOf (Json.escape c) ++ s) =
      (readPieces s).map fun p => (charPieces c ++ p.1, p.2) := by
  unfold Json.escape
  split
  · exact readPieces_escaped (by decide) rfl s
  · exact readPieces_escaped (by decide) rfl s
  · exact readPieces_escaped (by decide) rfl s
  · exact readPieces_escaped (by decide) rfl s
  · exact readPieces_escaped (by decide) rfl s
  · exact readPieces_escaped (by decide) rfl s
  · exact readPieces_escaped (by decide) rfl s
  · rename_i quote backslash h3 h4 h5 h6 h7
    have unescaped : c ∉ ['"', '\\', '\x08', '\x0c', '\n', '\r', '\t'] := by
      simp only [List.mem_cons, List.not_mem_nil, or_false, not_or]
      exact ⟨quote, backslash, h3, h4, h5, h6, h7⟩
    rw [charPieces, if_neg unescaped]
    by_cases control : c.toNat < 0x20
    · rw [if_pos control, if_pos control]
      exact readPieces_unit control s
    · rw [if_neg control, if_neg control, bytesOf_cons, bytesOf_nil, List.append_nil]
      exact readPieces_bytes
        (fun b hb => standsAlone_of_mem (Nat.not_lt.1 control) quote backslash hb) s

/-! ## Texts -/

theorem readPieces_quoted (text : List Char) (s : Bytes) :
    readPieces (bytesOf (text.flatMap Json.escape) ++ 0x22 :: s) =
      some (text.flatMap charPieces, s) := by
  induction text with
  | nil =>
    rw [List.flatMap_nil, bytesOf_nil, List.nil_append, readPieces.eq_def]
    rfl
  | cons c text ih =>
    rw [List.flatMap_cons, bytesOf_append, List.append_assoc, readPieces_escape, ih]
    rfl

theorem pieceBytes?_bytes (bytes : Bytes) (ps : List Piece) :
    pieceBytes? (bytes.map Piece.byte ++ ps) = (pieceBytes? ps).map (bytes ++ ·) := by
  induction bytes with
  | nil => exact Option.map_id.symm ▸ rfl
  | cons b bytes ih =>
    rw [List.map_cons, List.cons_append, pieceBytes?, ih, Option.map_map]
    rfl

theorem pieceBytes?_charPieces (c : Char) (ps : List Piece) :
    pieceBytes? (charPieces c ++ ps) = (pieceBytes? ps).map (String.utf8EncodeChar c ++ ·) := by
  unfold charPieces
  split
  · rename_i mem
    have bytes : [UInt8.ofNat c.toNat] = String.utf8EncodeChar c := by
      simp only [List.mem_cons, List.not_mem_nil, or_false] at mem
      rcases mem with rfl | rfl | rfl | rfl | rfl | rfl | rfl <;> decide
    rw [← bytes]
    rfl
  · split
    · rename_i control
      rw [List.singleton_append, pieceBytes?.eq_def]
      simp only [if_neg (show ¬(0xD800 ≤ c.toNat ∧ c.toNat ≤ 0xDBFF) by omega),
        if_neg (show ¬(0xDC00 ≤ c.toNat ∧ c.toNat ≤ 0xDFFF) by omega), Char.ofNat_toNat]
    · exact pieceBytes?_bytes _ ps

theorem pieceBytes?_pieces (text : List Char) :
    pieceBytes? (text.flatMap charPieces) = some (bytesOf text) := by
  induction text with
  | nil => rfl
  | cons c text ih =>
    rw [List.flatMap_cons, pieceBytes?_charPieces, ih]
    rfl

/-- The pieces of a text stand for it. -/
@[simp] theorem piecesText?_pieces (text : String) : piecesText? (pieces text) = some text := by
  rw [piecesText?, pieces, pieceBytes?_pieces]
  exact Utf8.decode?_encode text

end SnapshotStore.Spelling
