import SnapshotStore.Proofs.Json.Compact

/-!
Values of typed stores read back from their text (`ValueKind.readText_write`). Texts, numbers, bytes
and twins always are; a JSON value must be proper and not nested too deep. Main statement: of the
values without decimals those are read back that are not nested too deep, and no others
(`ValueKind.reads_back_unless_deep`).
-/

namespace SnapshotStore

open Spelling Json

variable {ν : Type}

namespace JsonCodec

theorem readText_write {codec : JsonCodec ν} {v : ν}
    (h : codec.read? (codec.toJson v).spelling = some v) : codec.readText (codec.write v) = .ok v := by
  rw [readText, read, write, read?_render, Option.bind_some, h]

theorem decode_encode (codec : JsonCodec ν) {v : ν} (h : codec.readText (codec.write v) = .ok v) :
    codec.stored.decode (codec.stored.encode v) = .ok v := h

end JsonCodec

namespace ValueKind

/-- Whether a store can keep a value of a kind. -/
def Storable : (kind : ValueKind) → kind.Carrier → Prop
  | value, v => v.Proper ∧ v.depth ≤ nestingLimit
  | string, _ | signed, _ | bytes, _ | twin, _ => True

/-- A whole number between the bounds of a reader. -/
theorem whole?_int {n least greatest : Int} (low : least ≤ n) (high : n ≤ greatest) :
    Spelling.whole? least greatest (Json.int n).spelling = some n := by
  rw [Json.int, spelling, Spelling.whole?, Number.whole?_numeral]
  exact if_pos ⟨low, high⟩

theorem mapM_bytes (bytes : Bytes) :
    (spellings (bytes.map fun b => Json.int b.toNat)).mapM
      (fun s => (Spelling.whole? 0 255 s).map fun n => UInt8.ofNat n.toNat) = some bytes := by
  induction bytes with
  | nil => rfl
  | cons b bytes ih =>
    have high : (b.toNat : Int) ≤ 255 := by
      have := b.toNat_lt
      omega
    rw [List.map_cons, spellings, List.mapM_cons, ih, whole?_int (Int.natCast_nonneg _) high,
      Option.map_some, Int.toNat_natCast, UInt8.ofNat_toNat]
    rfl

/-- What the text of a value spells means the value. -/
theorem read?_spelling {kind : ValueKind} {v : kind.Carrier} (h : kind.Storable v) :
    kind.json.read? (kind.json.toJson v).spelling = some v := by
  cases kind with
  | string => exact piecesText?_pieces v
  | signed =>
    show (Spelling.whole? _ _ (Json.int v.toInt).spelling).map Int64.ofInt = some v
    have low := v.le_toInt
    have high := v.toInt_lt
    rw [whole?_int (by omega) (by omega), Option.map_some, Int64.ofInt_toInt]
  | bytes => exact mapM_bytes v
  | value => exact h.1.value?_spelling h.2
  | twin =>
    have room := v.version.toNat_lt
    have fields : (twinJson.toJson v).spelling.fields? ["version", "desired"] =
        some [(Json.int v.version.toNat).spelling, (Json.string v.desired).spelling] := by
      show Spelling.fields? _ (.object (memberSpellings [_, _])) = _
      rw [Spelling.fields?, named?_memberSpellings]
      rfl
    have read : ∀ s, twinJson.read? s = (s.fields? ["version", "desired"]).bind _ := fun _ => rfl
    refine (read (twinJson.toJson v).spelling).trans ?_
    rw [fields]
    show ((Json.int v.version.toNat).spelling.whole? 0 4294967295).bind _ = some v
    rw [whole?_int (Int.natCast_nonneg _) (show (v.version.toNat : Int) ≤ 4294967295 by omega)]
    show (Json.string v.desired).spelling.text?.bind _ = some v
    rw [spelling, Spelling.text?, piecesText?_pieces, Option.bind_some, Int.toNat_natCast,
      UInt32.ofNat_toNat]
    rfl

theorem readText_write {kind : ValueKind} {v : kind.Carrier} (h : kind.Storable v) :
    kind.json.readText (kind.json.write v) = .ok v :=
  JsonCodec.readText_write (read?_spelling h)

end ValueKind

/-! ## Values that are nested too deep -/

/-- A value whose numbers are whole ones, from the least of 64 bits with a sign to the greatest
without. Objects are those of any members; the last one of a name counts. -/
inductive Json.Integral : Json → Prop
  | null : Integral .null
  | bool (b : Bool) : Integral (.bool b)
  | int {n : Int} (low : -9223372036854775808 ≤ n) (high : n ≤ 18446744073709551615) :
    Integral (.int n)
  | string (text : String) : Integral (.string text)
  | array {items : List Json} (parts : ∀ v ∈ items, Integral v) : Integral (.array items)
  | object {members : List (String × Json)} (parts : ∀ m ∈ members, Integral m.2) :
    Integral (.ofMembers members)

theorem Json.Integral.proper {v : Json} (h : v.Integral) : v.Proper := by
  induction h with
  | null => exact .null
  | bool b => exact .bool b
  | int low high => exact .number ⟨low, high⟩
  | string text => exact .string text
  | array _ ih => exact .array ih
  | @object members _ ih =>
    exact .object (OrderedMap.ofList members).sorted fun m mem =>
      ih m (OrderedMap.mem_of_mem_ofList mem)

namespace ValueKind

/-- Whether a store can keep a value of a kind, and it has no decimals. -/
def Integral : (kind : ValueKind) → kind.Carrier → Prop
  | value, v => v.Integral ∧ v.depth ≤ nestingLimit
  | string, _ | signed, _ | bytes, _ | twin, _ => True

theorem Integral.storable {kind : ValueKind} {v : kind.Carrier} (h : kind.Integral v) :
    kind.Storable v := by
  cases kind with
  | value => exact ⟨h.1.proper, h.2⟩
  | string | signed | bytes | twin => trivial

theorem readText_write_of_deep {v : Json} (deep : nestingLimit < v.depth) :
    anyJson.readText (anyJson.write v) = .error .serialization := by
  have none : anyJson.read? (anyJson.toJson v).spelling = none := value?_of_deep deep
  rw [JsonCodec.readText, JsonCodec.read, JsonCodec.write, read?_render, Option.bind_some, none]

/-- Every text, number, byte string and twin is read back from the bytes that a store keeps. A JSON
value without decimals is if and only if its arrays and objects are nested at most 127 deep; the
bytes of a deeper one cannot be read. -/
theorem reads_back_unless_deep :
    (∀ kind : ValueKind, kind ≠ .value → ∀ v : kind.Carrier,
      kind.json.stored.decode (kind.json.stored.encode v) = .ok v) ∧
    ∀ v : Json, v.Integral →
      (anyJson.stored.decode (anyJson.stored.encode v) = .ok v ↔ v.depth ≤ 127) ∧
      (127 < v.depth → anyJson.stored.decode (anyJson.stored.encode v) = .error .serialization) := by
  constructor
  · intro kind other v
    have storable : kind.Storable v := by
      cases kind with
      | value => exact absurd rfl other
      | string | signed | bytes | twin => trivial
    exact kind.json.decode_encode (readText_write storable)
  · intro v integral
    have fails : 127 < v.depth →
        anyJson.stored.decode (anyJson.stored.encode v) = .error .serialization :=
      readText_write_of_deep
    refine ⟨⟨fun back => ?_, fun shallow => ?_⟩, fails⟩
    · by_contra deep
      rw [fails (Nat.not_le.1 deep)] at back
      cases back
    · exact anyJson.decode_encode
        (@readText_write .value v ⟨integral.proper, shallow⟩)

/-- An object with the least and the greatest number, around which 126 arrays are the most. -/
theorem reads_back_unless_deep_nested :
    let v : Json := .ofMembers [("max", .int 18446744073709551615), ("min", .int (-9223372036854775808))]
    let nested := fun n => Nat.repeat (fun v => Json.array [v]) n v
    signed ≠ .value ∧ (json signed).stored.decode ((json signed).stored.encode (-5)) = .ok (-5) ∧
      (nested 126).Integral ∧
      anyJson.stored.decode (anyJson.stored.encode (nested 126)) = .ok (nested 126) ∧
      (nested 127).Integral ∧ 127 < (nested 127).depth ∧
      anyJson.stored.decode (anyJson.stored.encode (nested 127)) = .error .serialization := by
  intro v nested
  have integral : ∀ n, (nested n).Integral := by
    intro n
    induction n with
    | zero =>
      refine .object ?_
      simp only [List.forall_mem_cons]
      exact ⟨.int (by decide) (by decide), .int (by decide) (by decide), nofun⟩
    | succ n ih => exact .array (List.forall_mem_singleton.2 ih)
  have depth : ∀ n, (nested n).depth = n + 1 := by
    intro n
    induction n with
    | zero => rfl
    | succ n ih =>
      show max (nested n).depth 0 + 1 = _
      rw [ih, Nat.max_zero]
  have shallow : (nested 126).depth ≤ 127 := Nat.le_of_eq (depth 126)
  have deep : 127 < (nested 127).depth := Nat.lt_of_lt_of_eq (by decide) (depth 127).symm
  obtain ⟨others, values⟩ := reads_back_unless_deep
  exact ⟨nofun, others .signed nofun (-5), integral 126,
    (values _ (integral 126)).1.2 shallow, integral 127, deep, (values _ (integral 127)).2 deep⟩

end ValueKind

end SnapshotStore
