import SnapshotStore.Error

/-!
Keys of typed stores and their bytes: text in UTF-8, bytes as they are, and 64-bit whole numbers in
eight bytes, highest first, negative ones in two's complement. Among numbers of one sign the bytes
are ordered as the numbers are.
-/

namespace SnapshotStore

/-- How the keys of a store are written, read back and shown in a listing. -/
structure KeyCodec (κ : Type) where
  encode : κ → Bytes
  decode : Bytes → Except StoreError κ
  inspect : κ → String

/-- The types of keys that a store can have. -/
inductive KeyKind where
  | string
  | bytes
  | signed
  | unsigned
  deriving DecidableEq, Repr, Inhabited

namespace KeyKind

abbrev Carrier : KeyKind → Type
  | string => String
  | bytes => Bytes
  | signed => Int64
  | unsigned => UInt64

/-- Bytes in a listing: their numbers in brackets. -/
def inspectBytes (bytes : Bytes) : String :=
  "[" ++ ", ".intercalate (bytes.map fun b => toString b.toNat) ++ "]"

def stringCodec : KeyCodec String where
  encode := Utf8.encode
  decode bytes := (Utf8.decode bytes).mapError fun fault => .codec (.keyNotText fault)
  inspect := Quoted.quote

def bytesCodec : KeyCodec Bytes where
  encode := id
  decode := .ok
  inspect := inspectBytes

def signedCodec : KeyCodec Int64 where
  encode n := Bytes.bigEndian 8 n.toUInt64.toNat
  decode bytes :=
    if bytes.length = 8 then .ok (UInt64.ofNat (Bytes.toNat bytes)).toInt64
    else .error (.codec (.offsetKeySize bytes.length))
  inspect n := toString n.toInt

def unsignedCodec : KeyCodec UInt64 where
  encode n := Bytes.bigEndian 8 n.toNat
  decode bytes :=
    if bytes.length = 8 then .ok (UInt64.ofNat (Bytes.toNat bytes))
    else .error (.codec (.keySize bytes.length))
  inspect n := toString n.toNat

def codec : (kind : KeyKind) → KeyCodec kind.Carrier
  | string => stringCodec
  | bytes => bytesCodec
  | signed => signedCodec
  | unsigned => unsignedCodec

end KeyKind

end SnapshotStore
