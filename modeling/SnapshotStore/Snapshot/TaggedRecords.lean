import SnapshotStore.Error

/-!
Snapshots as tagged records. A message is a sequence of fields, each a key (field number and wire
type in one variable-length number) and a payload. A snapshot is a message whose field 1 occurs once
for each entry; its payload is a message with the key in field 1 and the value in field 2, either of
which is left out when it is empty.

The reader takes any message of that shape: fields in any order, the last key and the last value of
an entry, fields of other numbers skipped. Field 1 or 2 in another wire type is an error.
-/

namespace SnapshotStore.TaggedRecords

/-! ## Variable-length numbers -/

/-- A number in base 128, lowest digit first; every byte but the last has its top bit set. -/
def writeVarint (n : Nat) : Bytes :=
  if n < 128 then [UInt8.ofNat n] else UInt8.ofNat (n % 128 + 128) :: writeVarint (n / 128)
termination_by n

/-- Reads a number of at most `left` digits. When all ten are used the last one holds one bit. -/
def readVarint : (left : Nat) → Bytes → Option (Nat × Bytes)
  | 0, _ => none
  | _ + 1, [] => none
  | left + 1, b :: s =>
    if b < 128 then
      if left = 0 ∧ 2 ≤ b then none else some (b.toNat, s)
    else (readVarint left s).map fun (n, rest) => (b.toNat % 128 + 128 * n, rest)

/-- Reads a number below 2^64. -/
def readNumber (s : Bytes) : Option (Nat × Bytes) := readVarint 10 s

theorem length_readVarint {left : Nat} {s rest : Bytes} {n : Nat}
    (h : readVarint left s = some (n, rest)) : rest.length < s.length := by
  fun_induction readVarint left s generalizing n rest with
  | case1 => simp at h
  | case2 => simp at h
  | case3 => simp_all
  | case4 => simp_all
  | case5 left b s hb ih =>
    obtain ⟨⟨m, r⟩, hm, he⟩ := Option.map_eq_some_iff.1 h
    simp only [Prod.mk.injEq] at he
    obtain ⟨_, rfl⟩ := he
    have := ih hm
    simp only [List.length_cons]
    omega

/-! ## Fields -/

/-- A field of a message: a payload of bytes, or one of another wire type, whose content nobody
asks for. -/
inductive Field where
  | payload (number : Nat) (bytes : Bytes)
  | other (number : Nat)
  deriving DecidableEq, Repr

/-- The wire types. -/
inductive Wire where
  | varint
  | fixed (width : Nat)
  | lengthDelimited
  | startGroup
  | endGroup
  deriving DecidableEq, Repr

/-- The wire type for the low three bits of a key. -/
def wire? : Nat → Option Wire
  | 0 => some .varint
  | 1 => some (.fixed 8)
  | 2 => some .lengthDelimited
  | 3 => some .startGroup
  | 4 => some .endGroup
  | 5 => some (.fixed 4)
  | _ => none

/-- Reads the key of a field. It fits 32 bits, and field numbers begin at one. -/
def readKey (s : Bytes) : Option (Nat × Wire × Bytes) :=
  match readNumber s with
  | some (key, rest) =>
    if key < 4294967296 ∧ 8 ≤ key then (wire? (key % 8)).map fun wire => (key / 8, wire, rest)
    else none
  | none => none

theorem length_readKey {s rest : Bytes} {number : Nat} {wire : Wire}
    (h : readKey s = some (number, wire, rest)) : rest.length < s.length := by
  unfold readKey at h
  split at h
  · next hn =>
    split at h
    · obtain ⟨w, _, he⟩ := Option.map_eq_some_iff.1 h
      simp only [Prod.mk.injEq] at he
      obtain ⟨_, _, rfl⟩ := he
      exact length_readVarint hn
    · simp at h
  · simp at h

/-- Reads a payload of bytes after its key. -/
def readPayload (s : Bytes) : Option (Bytes × Bytes) :=
  match readNumber s with
  | some (length, rest) => Bytes.splitAt? length rest
  | none => none

theorem length_readPayload {s bytes rest : Bytes} (h : readPayload s = some (bytes, rest)) :
    rest.length < s.length := by
  unfold readPayload at h
  split at h
  · next hn => exact Nat.lt_of_le_of_lt (Bytes.length_rest_le h) (length_readVarint hn)
  · simp at h

/-- Skips a payload that is no group. -/
def skipPlain (wire : Wire) (s : Bytes) : Option Bytes :=
  match wire with
  | .varint => (readNumber s).map (·.2)
  | .fixed width => (Bytes.splitAt? width s).map (·.2)
  | .lengthDelimited => (readPayload s).map (·.2)
  | .startGroup | .endGroup => none

theorem length_skipPlain {wire : Wire} {s rest : Bytes} (h : skipPlain wire s = some rest) :
    rest.length ≤ s.length := by
  cases wire with
  | varint =>
    obtain ⟨⟨_, _⟩, hn, rfl⟩ := Option.map_eq_some_iff.1 h
    exact Nat.le_of_lt (length_readVarint hn)
  | fixed width =>
    obtain ⟨⟨_, _⟩, hn, rfl⟩ := Option.map_eq_some_iff.1 h
    exact Bytes.length_rest_le hn
  | lengthDelimited =>
    obtain ⟨⟨_, _⟩, hn, rfl⟩ := Option.map_eq_some_iff.1 h
    exact Nat.le_of_lt (length_readPayload hn)
  | startGroup => simp [skipPlain] at h
  | endGroup => simp [skipPlain] at h

/-- Skips to the end of the outermost of the open groups, given by their numbers, innermost first.
A field inside as many groups as there are levels is an error. -/
def skipGroups (levels : Nat) (groups : List Nat) (s : Bytes) : Option Bytes :=
  match groups with
  | [] => some s
  | innermost :: outer =>
    match _h : readKey s with
    | none => none
    | some (number, wire, rest) =>
      if wire = .endGroup then
        if number = innermost then skipGroups levels outer rest else none
      else if levels ≤ (innermost :: outer).length then none
      else if wire = .startGroup then skipGroups levels (number :: innermost :: outer) rest
      else
        match _hs : skipPlain wire rest with
        | none => none
        | some rest => skipGroups levels (innermost :: outer) rest
termination_by s.length
decreasing_by
  · exact length_readKey _h
  · exact length_readKey _h
  · exact Nat.lt_of_le_of_lt (length_skipPlain _hs) (length_readKey _h)

theorem length_skipGroups {levels : Nat} {groups : List Nat} {s rest : Bytes}
    (h : skipGroups levels groups s = some rest) : rest.length ≤ s.length := by
  fun_induction skipGroups levels groups s generalizing rest with
  | case1 => simp_all
  | case2 => simp at h
  | case3 s outer number r hk ih => have := ih h; have := length_readKey hk; omega
  | case4 => simp at h
  | case5 => simp at h
  | case6 s inner outer number r _ hk _ ih => have := ih h; have := length_readKey hk; omega
  | case7 => simp at h
  | case8 s inner outer number wire r hk _ _ _ r' hs ih =>
    have := ih h
    have := length_readKey hk
    have := length_skipPlain hs
    omega

/-- Reads one field. -/
def readField (levels : Nat) (s : Bytes) : Option (Field × Bytes) :=
  match readKey s with
  | none => none
  | some (number, wire, rest) =>
    match wire with
    | .lengthDelimited =>
      (readPayload rest).map fun (bytes, rest) => (.payload number bytes, rest)
    | .startGroup => (skipGroups levels [number] rest).map fun rest => (.other number, rest)
    | wire => (skipPlain wire rest).map fun rest => (.other number, rest)

theorem length_readField {levels : Nat} {s rest : Bytes} {field : Field}
    (h : readField levels s = some (field, rest)) : rest.length < s.length := by
  unfold readField at h
  split at h
  · simp at h
  · next number wire r hk =>
    have hlt := length_readKey hk
    split at h
    · obtain ⟨⟨bytes, r'⟩, hp, he⟩ := Option.map_eq_some_iff.1 h
      simp only [Prod.mk.injEq] at he
      obtain ⟨_, rfl⟩ := he
      exact Nat.lt_trans (length_readPayload hp) hlt
    · obtain ⟨r', hp, he⟩ := Option.map_eq_some_iff.1 h
      simp only [Prod.mk.injEq] at he
      obtain ⟨_, rfl⟩ := he
      exact Nat.lt_of_le_of_lt (length_skipGroups hp) hlt
    · obtain ⟨r', hp, he⟩ := Option.map_eq_some_iff.1 h
      simp only [Prod.mk.injEq] at he
      obtain ⟨_, rfl⟩ := he
      exact Nat.lt_of_le_of_lt (length_skipPlain hp) hlt

/-- The fields of a message. -/
def readFields (levels : Nat) (s : Bytes) : Option (List Field) :=
  match s with
  | [] => some []
  | b :: s =>
    match _h : readField levels (b :: s) with
    | none => none
    | some (field, rest) => (readFields levels rest).map (field :: ·)
termination_by s.length
decreasing_by exact length_readField _h

/-! ## Snapshots -/

def levelLimit : Nat := 100

/-- A field whose payload is bytes. -/
def writeField (number : Nat) (bytes : Bytes) : Bytes :=
  writeVarint (number * 8 + 2) ++ (writeVarint bytes.length ++ bytes)

/-- A field that is left out when it is empty. -/
def writeOptional (number : Nat) (bytes : Bytes) : Bytes :=
  if bytes.isEmpty then [] else writeField number bytes

def writeEntry (entry : Bytes × Bytes) : Bytes :=
  writeOptional 1 entry.1 ++ writeOptional 2 entry.2

def write (entries : List (Bytes × Bytes)) : Bytes :=
  entries.flatMap fun entry => writeField 1 (writeEntry entry)

/-- What a field makes of an entry read so far. -/
def addField (entry : Bytes × Bytes) : Field → Option (Bytes × Bytes)
  | .payload 1 bytes => some (bytes, entry.2)
  | .payload 2 bytes => some (entry.1, bytes)
  | .other 1 | .other 2 => none
  | _ => some entry

/-- The entry that a message holds. -/
def readEntry (bytes : Bytes) : Option (Bytes × Bytes) := do
  let fields ← readFields (levelLimit - 1) bytes
  fields.foldlM addField ([], [])

/-- The entries that the fields of a snapshot hold. -/
def entries? : List Field → Option (List (Bytes × Bytes))
  | [] => some []
  | .payload 1 bytes :: rest => do
    let entry ← readEntry bytes
    let entries ← entries? rest
    pure (entry :: entries)
  | .other 1 :: _ => none
  | _ :: rest => entries? rest

/-- The entries of a snapshot. -/
def read? (bytes : Bytes) : Option (List (Bytes × Bytes)) :=
  (readFields levelLimit bytes).bind entries?

@[inherit_doc read?]
def read (bytes : Bytes) : Except StoreError (List (Bytes × Bytes)) :=
  match read? bytes with
  | some entries => .ok entries
  | none => .error (.codec .taggedRecords)

end SnapshotStore.TaggedRecords
