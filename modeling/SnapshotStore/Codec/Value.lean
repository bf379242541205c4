import SnapshotStore.Error
import SnapshotStore.Json.Spelling

/-!
Values of typed stores and their bytes: the compact JSON text of the value in UTF-8. A reader takes
any spelling of it. `ValueCodec` covers stores whose values are texts kept as they are, too.
-/

namespace SnapshotStore

/-- How the values of a store are written and read back. -/
structure ValueCodec (ν : Type) where
  encode : ν → Bytes
  decode : Bytes → Except StoreError ν

/-- A type whose values have a JSON text. -/
structure JsonCodec (ν : Type) where
  /-- The value as JSON. -/
  toJson : ν → Json
  /-- The value that a spelling means. -/
  read? : Spelling → Option ν

namespace JsonCodec

variable {ν : Type}

def write (codec : JsonCodec ν) (v : ν) : String := (codec.toJson v).render

def read (codec : JsonCodec ν) (bytes : Bytes) : Except StoreError ν :=
  match (Spelling.read? bytes).bind codec.read? with
  | some v => .ok v
  | none => .error .serialization

/-- The value that a text means. -/
def readText (codec : JsonCodec ν) (text : String) : Except StoreError ν :=
  codec.read (Utf8.encode text)

/-- Values kept as the UTF-8 bytes of their compact text. -/
def stored (codec : JsonCodec ν) : ValueCodec ν where
  encode v := Utf8.encode (codec.write v)
  decode := codec.read

end JsonCodec

/-- What a device should be and which version of that it is. -/
structure Twin where
  version : UInt32
  desired : String
  deriving DecidableEq, Repr, Inhabited

/-- The types of values that a store can have. -/
inductive ValueKind where
  | string
  | signed
  | bytes
  | value
  | twin
  deriving DecidableEq, Repr, Inhabited

namespace ValueKind

abbrev Carrier : ValueKind → Type
  | string => String
  | signed => Int64
  | bytes => Bytes
  | value => Json
  | twin => Twin

/-- How deep a JSON value may be nested to be read. -/
def nestingLimit : Nat := 127

def stringJson : JsonCodec String where
  toJson := .string
  read? := Spelling.text?

def signedJson : JsonCodec Int64 where
  toJson n := .int n.toInt
  read? s := (s.whole? (-9223372036854775808) 9223372036854775807).map Int64.ofInt

/-- Bytes, as an array of their numbers. -/
def bytesJson : JsonCodec Bytes where
  toJson bytes := .array (bytes.map fun b => .int b.toNat)
  read?
    | .array items => items.mapM fun s => (s.whole? 0 255).map fun n => UInt8.ofNat n.toNat
    | _ => none

/-- Values of any shape, their members in ascending order of names. -/
def anyJson : JsonCodec Json where
  toJson := id
  read? := Spelling.value? nestingLimit

/-- Twins, as records of their two fields. -/
def twinJson : JsonCodec Twin where
  toJson twin := .object [("version", .int twin.version.toNat), ("desired", .string twin.desired)]
  read? s := do
    match ← s.fields? ["version", "desired"] with
    | [version, desired] =>
      let n ← version.whole? 0 4294967295
      let text ← desired.text?
      pure ⟨UInt32.ofNat n.toNat, text⟩
    | _ => none

def json : (kind : ValueKind) → JsonCodec kind.Carrier
  | string => stringJson
  | signed => signedJson
  | bytes => bytesJson
  | value => anyJson
  | twin => twinJson

end ValueKind

namespace ValueCodec

/-- Texts kept as their UTF-8 bytes. -/
def text : ValueCodec String where
  encode := Utf8.encode
  decode bytes := (Utf8.decode bytes).mapError fun fault => .codec (.valueNotText fault)

/-- Bytes kept as they are. -/
def raw : ValueCodec Bytes where
  encode := id
  decode := .ok

end ValueCodec

end SnapshotStore
