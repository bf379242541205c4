import SnapshotStore.Bytes.Basic

/-!
UTF-8: the bytes of a text, and the reader that either returns the text or says where and how the
bytes fail. The reader first cuts the bytes into segments (`scan`): a character, a run of bytes that
cannot be continued to one, or a beginning of one at the end of the input. The strict reader
(`decode`) accepts characters only; the lenient one (`decodeLossy`) writes U+FFFD for each other
segment.
-/

namespace SnapshotStore.Utf8

def encode (text : String) : Bytes :=
  text.toList.flatMap String.utf8EncodeChar

/-- A piece of a byte string. -/
inductive Segment where
  /-- A well-formed character. -/
  | char (c : Char)
  /-- Bytes that begin no character, or a beginning whose next byte does not fit. -/
  | broken (length : Nat)
  /-- The beginning of a character, cut off by the end of the input. -/
  | cut (length : Nat)
  deriving DecidableEq, Repr

/-- Whether a byte can stand after the second byte of a character. -/
def isContinuation (b : UInt8) : Bool :=
  0x80 ≤ b && b ≤ 0xBF

/-- For a byte that begins a longer character: how many bytes follow the second one, and the least
and the greatest second byte. The bounds leave out overlong forms, surrogates and what lies beyond
U+10FFFF. -/
def lead? (b : UInt8) : Option (Nat × UInt8 × UInt8) :=
  if b < 0xC2 then none
  else if b ≤ 0xDF then some (0, 0x80, 0xBF)
  else if b = 0xE0 then some (1, 0xA0, 0xBF)
  else if b = 0xED then some (1, 0x80, 0x9F)
  else if b ≤ 0xEF then some (1, 0x80, 0xBF)
  else if b = 0xF0 then some (2, 0x90, 0xBF)
  else if b ≤ 0xF3 then some (2, 0x80, 0xBF)
  else if b = 0xF4 then some (2, 0x80, 0x8F)
  else none

/-- The low six bits of a continuation byte. -/
def payload (b : UInt8) : Nat := b.toNat % 64

/-- Cuts bytes into segments. -/
def scan : Bytes → List Segment
  | [] => []
  | a :: s =>
    if a < 0x80 then .char (Char.ofNat a.toNat) :: scan s
    else match lead? a with
      | none => .broken 1 :: scan s
      | some (more, lo, hi) =>
        match s with
        | [] => [.cut 1]
        | b :: s =>
          if b < lo ∨ hi < b then .broken 1 :: scan (b :: s)
          else if more = 0 then
            .char (Char.ofNat (a.toNat % 32 * 64 + payload b)) :: scan s
          else match s with
            | [] => [.cut 2]
            | c :: s =>
              if isContinuation c = false then .broken 2 :: scan (c :: s)
              else if more = 1 then
                .char (Char.ofNat ((a.toNat % 16 * 64 + payload b) * 64 + payload c)) :: scan s
              else match s with
                | [] => [.cut 3]
                | d :: s =>
                  if isContinuation d = false then .broken 3 :: scan (d :: s)
                  else
                    .char (Char.ofNat
                      (((a.toNat % 8 * 64 + payload b) * 64 + payload c) * 64 + payload d))
                        :: scan s

/-- Why bytes are not a text: how many bytes before the fault are good, and how many of those after
it belong to it, unless the input merely ended too early. -/
structure Fault where
  index : Nat
  length : Option Nat
  deriving DecidableEq, Repr

def Fault.message (fault : Fault) : String :=
  match fault.length with
  | some length => s!"invalid utf-8 sequence of {length} bytes from index {fault.index}"
  | none => s!"incomplete utf-8 byte sequence from index {fault.index}"

/-- The characters of segments that begin at `index`, or the first fault. -/
def collect (index : Nat) : List Segment → Except Fault (List Char)
  | [] => .ok []
  | .char c :: rest => (collect (index + c.utf8Size) rest).map (c :: ·)
  | .broken length :: _ => .error ⟨index, some length⟩
  | .cut _ :: _ => .error ⟨index, none⟩

/-- The text that the bytes spell. -/
def decode (bytes : Bytes) : Except Fault String :=
  (collect 0 (scan bytes)).map String.ofList

@[inherit_doc decode]
def decode? (bytes : Bytes) : Option String :=
  (decode bytes).toOption

/-- The character that stands for bytes that spell none. -/
def replacement : Char := Char.ofNat 0xFFFD

/-- The character that the lenient reader writes for a segment. -/
def Segment.shown : Segment → Char
  | char c => c
  | broken _ | cut _ => replacement

/-- The text that the bytes spell, with U+FFFD where they spell none. -/
def decodeLossy (bytes : Bytes) : String :=
  String.ofList ((scan bytes).map Segment.shown)

end SnapshotStore.Utf8
