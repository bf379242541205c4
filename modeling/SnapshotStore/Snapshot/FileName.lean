import SnapshotStore.Error

/-!
File names of snapshots. Every byte of an entity's name outside `A-Z a-z 0-9 - _ . ~` is written as
a percent sign and two upper-case digits, so that any text names a file of its own in the directory
it is meant for. The reader takes digits of either case.
-/

namespace SnapshotStore.FileName

/-- What follows the encoded name of an entity in the name of its snapshot. -/
def suffix : String := ".bin"

/-- Whether a byte stands for itself in a file name. -/
def isPlain (b : UInt8) : Bool :=
  (0x30 ≤ b && b ≤ 0x39) || (0x41 ≤ b && b ≤ 0x5A) || (0x61 ≤ b && b ≤ 0x7A) ||
    b = 0x2D || b = 0x5F || b = 0x2E || b = 0x7E

/-- The characters for one byte. -/
def encodeByte (b : UInt8) : List Char :=
  if isPlain b then [Char.ofNat b.toNat]
  else ['%', Hex.upperDigit (b.toNat / 16), Hex.upperDigit (b.toNat % 16)]

def encode (name : String) : String :=
  String.ofList ((Utf8.encode name).flatMap encodeByte)

/-- The number that two characters after a percent sign spell: two digits, or a plus and a digit. -/
def escapeValue? : List Char → Option Nat
  | ['+', lo] => Hex.digitValue? lo
  | [hi, lo] => do
    let hi ← Hex.digitValue? hi
    let lo ← Hex.digitValue? lo
    pure (16 * hi + lo)
  | _ => none

/-- The characters that make up the two bytes after a percent sign: two of one byte each or one of
two bytes. Without them the escape is cut off. -/
def escapeChars? : List Char → Option (List Char × List Char)
  | c :: d :: rest =>
    if c.utf8Size = 2 then some ([c], d :: rest)
    else if c.utf8Size = 1 ∧ d.utf8Size = 1 then some ([c, d], rest)
    else none
  | [c] => if c.utf8Size = 2 then some ([c], []) else none
  | [] => none

theorem length_escapeChars? {s taken rest : List Char} (h : escapeChars? s = some (taken, rest)) :
    rest.length < s.length := by
  unfold escapeChars? at h
  grind

/-- The bytes of an encoded name; `whole` is the name as given, which a fault shows. -/
def decodeBytes (whole : String) (s : List Char) : Except CodecFault Bytes :=
  match s with
  | [] => .ok []
  | c :: s =>
    if c = '%' then
      match _h : escapeChars? s with
      | none => .error (.truncatedEscape whole)
      | some (digits, rest) =>
        match escapeValue? digits with
        | none => .error (.badEscape (String.ofList digits) whole)
        | some n => (decodeBytes whole rest).map (UInt8.ofNat n :: ·)
    else (decodeBytes whole s).map (String.utf8EncodeChar c ++ ·)
termination_by s.length
decreasing_by
  · have := length_escapeChars? _h
    simp only [List.length_cons]
    omega
  · simp

def decode (encoded : String) : Except StoreError String := do
  let bytes ← (decodeBytes encoded encoded.toList).mapError StoreError.codec
  (Utf8.decode bytes).mapError fun fault => .codec (.nameNotText fault)

def snapshot (entity : String) : String := encode entity ++ suffix

/-- What stands before the suffix in the name of a snapshot file. -/
def stem? (fileName : String) : Option String :=
  let s := fileName.toList
  if suffix.toList.isSuffixOf s then some (String.ofList (s.take (s.length - suffix.length)))
  else none

/-- `name` in a directory; a separator is put between them unless the directory ends with one or is
not given, and a name that begins with one is a path of its own. -/
def join (dir name : String) : String :=
  if name.toList.head? = some '/' ∨ dir = "" then name
  else if dir.toList.getLast? = some '/' then dir ++ name
  else dir ++ "/" ++ name

/-- The path of the snapshot file of an entity in a directory. -/
def snapshotPath (dir entity : String) : String := join dir (snapshot entity)

end SnapshotStore.FileName
