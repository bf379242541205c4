import SnapshotStore.Error

/-!
Snapshots as one data item in concise binary form: an array with an array of two byte strings, key
and value, for each entry. The writer uses the shortest head for each length. The reader takes any
spelling, strings in pieces and arrays without a length among them, reads the first item and leaves
what follows it; then it asks for the shape.
-/

namespace SnapshotStore.Cbor

/-! ## Writing -/

/-- The head of an item: its major type and a number, in as few bytes as hold it. -/
def writeHead (major n : Nat) : Bytes :=
  if n < 24 then [UInt8.ofNat (major * 32 + n)]
  else if n < 256 then UInt8.ofNat (major * 32 + 24) :: Bytes.bigEndian 1 n
  else if n < 65536 then UInt8.ofNat (major * 32 + 25) :: Bytes.bigEndian 2 n
  else if n < 4294967296 then UInt8.ofNat (major * 32 + 26) :: Bytes.bigEndian 4 n
  else UInt8.ofNat (major * 32 + 27) :: Bytes.bigEndian 8 n

/-- A byte string. -/
def writeBytes (bytes : Bytes) : Bytes := writeHead 2 bytes.length ++ bytes

def writeEntry (entry : Bytes × Bytes) : Bytes :=
  writeHead 4 2 ++ (writeBytes entry.1 ++ writeBytes entry.2)

def write (entries : List (Bytes × Bytes)) : Bytes :=
  writeHead 4 entries.length ++ entries.flatMap writeEntry

/-! ## Heads -/

/-- The number in a head; none stands for a length left open, or for the mark that ends it. -/
structure Head where
  major : Nat
  minor : Nat
  argument : Option Nat
  deriving DecidableEq, Repr

/-- Reads the head of an item. -/
def readHead : Bytes → Option (Head × Bytes)
  | [] => none
  | b :: s =>
    let major := b.toNat / 32
    let minor := b.toNat % 32
    let wide (width : Nat) : Option (Head × Bytes) :=
      (Bytes.splitAt? width s).map fun (digits, rest) =>
        (⟨major, minor, some (Bytes.toNat digits)⟩, rest)
    if minor < 24 then some (⟨major, minor, some minor⟩, s)
    else if minor = 24 then wide 1
    else if minor = 25 then wide 2
    else if minor = 26 then wide 4
    else if minor = 27 then wide 8
    else if minor = 31 then some (⟨major, minor, none⟩, s)
    else none

/-- Whether a head is the mark that ends an open length. -/
def Head.isBreak (head : Head) : Bool := head.major = 7 && head.argument.isNone

/-! ## Items -/

/-- An item, as far as a snapshot tells items apart. -/
inductive Item where
  | bytes (bytes : Bytes)
  | array (items : List Item)
  /-- A number, text, map, tag or simple value. -/
  | other
  deriving Repr

/-- Whether bytes may stand in a string of a major type: a text must be well formed. -/
def fitsString (major : Nat) (bytes : Bytes) : Bool :=
  major = 2 || (Utf8.decode? bytes).isSome

/-- Reads the pieces of a string of open length. Pieces of open length may be nested; `nesting`
counts those that are open. -/
def readPieces (major : Nat) : (fuel nesting : Nat) → Bytes → Option (Bytes × Bytes)
  | 0, _, _ => none
  | fuel + 1, nesting, s => do
    let (head, rest) ← readHead s
    if head.isBreak then
      if nesting ≤ 1 then some ([], rest) else readPieces major fuel (nesting - 1) rest
    else if head.major = major then
      match head.argument with
      | none => readPieces major fuel (nesting + 1) rest
      | some length => do
        let (piece, rest) ← Bytes.splitAt? length rest
        if fitsString major piece then do
          let (bytes, rest) ← readPieces major fuel nesting rest
          pure (piece ++ bytes, rest)
        else none
    else none

/-- Reads the content of a string after its head. -/
def readString (fuel major : Nat) (argument : Option Nat) (s : Bytes) : Option (Bytes × Bytes) :=
  match argument with
  | none => readPieces major fuel 1 s
  | some length => do
    let (bytes, rest) ← Bytes.splitAt? length s
    if fitsString major bytes then some (bytes, rest) else none

/-- Whether a head of major type 7 is a value on its own: false, true, null, undefined, or a
floating-point number. -/
def isSimpleValue (head : Head) : Bool :=
  if head.minor ≤ 24 then
    match head.argument with
    | some n => 20 ≤ n && n ≤ 23
    | none => false
  else head.minor ≤ 27

/-- The length of a short number's digits and what follows its head: after tag 2, for a number from
zero on, or tag 3, for a negative one, a byte string of a stated length up to 16. -/
def numberLength? (tag : Nat) (s : Bytes) : Option (Nat × Bytes) :=
  if tag = 2 || tag = 3 then
    match readHead s with
    | some (⟨2, _, some length⟩, rest) => if length ≤ 16 then some (length, rest) else none
    | _ => none
  else none

/-- Whether a short number is in range: below 2^128, and a negative one not below -2^127. -/
def fitsNumber (tag : Nat) (digits : Bytes) : Bool :=
  Bytes.toNat digits < if tag = 3 then 1 <<< 127 else 1 <<< 128

mutual

/-- Reads an item nested in at most `levels` arrays, maps and tags; a short number takes no level.
The fuel bounds the steps. -/
def readItem : (fuel levels : Nat) → Bytes → Option (Item × Bytes)
  | 0, _, _ => none
  | fuel + 1, levels, s =>
    match readHead s with
    | none => none
    | some (head, rest) =>
      match head.major, head.argument with
      | 0, some _ | 1, some _ => some (.other, rest)
      | 2, argument => (readString fuel 2 argument rest).map fun (b, rest) => (.bytes b, rest)
      | 3, argument => (readString fuel 3 argument rest).map fun (_, rest) => (.other, rest)
      | 4, argument =>
        match levels with
        | 0 => none
        | levels + 1 =>
          let items : Option (List Item × Bytes) :=
            match argument with
            | some count => readItems fuel levels count rest
            | none => readOpen fuel levels rest
          items.map fun (items, rest) => (.array items, rest)
      | 5, argument =>
        match levels with
        | 0 => none
        | levels + 1 =>
          let after : Option Bytes :=
            match argument with
            | some count => (readItems fuel levels (2 * count) rest).map fun (_, rest) => rest
            | none => readOpenMap fuel levels rest
          after.map fun rest => (.other, rest)
      | 6, some tag =>
        match numberLength? tag rest with
        | some (length, rest) => do
          let (digits, rest) ← Bytes.splitAt? length rest
          if fitsNumber tag digits then some (.other, rest) else none
        | none =>
          match levels with
          | 0 => none
          | levels + 1 => (readItem fuel levels rest).map fun (_, rest) => (.other, rest)
      | 7, _ => if isSimpleValue head then some (.other, rest) else none
      | _, _ => none

def readItems : (fuel levels count : Nat) → Bytes → Option (List Item × Bytes)
  | _, _, 0, s => some ([], s)
  | 0, _, _ + 1, _ => none
  | fuel + 1, levels, count + 1, s =>
    match readItem fuel levels s with
    | none => none
    | some (item, rest) =>
      (readItems fuel levels count rest).map fun (items, rest) => (item :: items, rest)

/-- Reads items up to the mark that ends them. -/
def readOpen : (fuel levels : Nat) → Bytes → Option (List Item × Bytes)
  | 0, _, _ => none
  | fuel + 1, levels, s =>
    match readHead s with
    | none => none
    | some (head, afterMark) =>
      if head.isBreak then some ([], afterMark)
      else
        match readItem fuel levels s with
        | none => none
        | some (item, rest) =>
          (readOpen fuel levels rest).map fun (items, rest) => (item :: items, rest)

/-- Reads pairs of items up to the mark that ends them; it cannot stand between two of a pair. -/
def readOpenMap : (fuel levels : Nat) → Bytes → Option Bytes
  | 0, _, _ => none
  | fuel + 1, levels, s =>
    match readHead s with
    | none => none
    | some (head, afterMark) =>
      if head.isBreak then some afterMark
      else
        match readItem fuel levels s with
        | none => none
        | some (_, rest) =>
          match readItem fuel levels rest with
          | none => none
          | some (_, rest) => readOpenMap fuel levels rest

end

/-! ## Reading -/

/-- How deep arrays, maps and tags may be nested. -/
def levelLimit : Nat := 256

/-- The first item of bytes. -/
def first? (bytes : Bytes) : Option Item :=
  (readItem (2 * bytes.length + 2) levelLimit bytes).map (·.1)

/-- The entry that an item holds. -/
def entry : Item → Except CodecFault (Bytes × Bytes)
  | .array [.bytes key, .bytes value] => .ok (key, value)
  | .array _ => .error .entryNotPair
  | _ => .error .entryNotArray

/-- The entries that items hold, or the fault of the first that holds none. -/
def entries : List Item → Except CodecFault (List (Bytes × Bytes))
  | [] => .ok []
  | item :: rest => do
    let e ← entry item
    let es ← entries rest
    pure (e :: es)

def read (bytes : Bytes) : Except StoreError (List (Bytes × Bytes)) :=
  match first? bytes with
  | none => .error (.codec .cbor)
  | some (.array items) => (entries items).mapError StoreError.codec
  | some _ => .error (.codec .notArray)

end SnapshotStore.Cbor
