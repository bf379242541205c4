import SnapshotStore.Bytes.Hex

/-!
Identifiers of backups: 128 bits, written as 32 lower-case digits in groups of 8, 4, 4, 4 and 12
between hyphens. The reader takes digits of either case, with hyphens or without any; the hyphenated
form may stand in braces or after `urn:uuid:`.
-/

namespace SnapshotStore

/-- An identifier of 128 bits. -/
structure Id where
  val : BitVec 128
  deriving DecidableEq, Repr, Inhabited

namespace Id

/-- The lowest `count` digits of a number, highest first. -/
def digits : (count n : Nat) → List Char
  | 0, _ => []
  | count + 1, n => digits count (n / 16) ++ [Hex.digit (n % 16)]

def chars (id : Id) : List Char :=
  let ds := digits 32 id.val.toNat
  ds.take 8 ++ '-' :: (ds.drop 8).take 4 ++ '-' :: (ds.drop 12).take 4 ++
    '-' :: (ds.drop 16).take 4 ++ '-' :: ds.drop 20

def render (id : Id) : String := String.ofList id.chars

/-- The number that digits spell, highest first. -/
def ofDigits? (acc : Nat) : List Char → Option Nat
  | [] => some acc
  | c :: rest => do
    let d ← Hex.digitValue? c
    ofDigits? (acc * 16 + d) rest

/-- The identifier of 32 digits. -/
def ofSimple? (s : List Char) : Option Id :=
  if s.length = 32 then (ofDigits? 0 s).map fun n => ⟨BitVec.ofNat 128 n⟩ else none

/-- The identifier of digits in groups between hyphens. -/
def ofHyphenated? (s : List Char) : Option Id :=
  if s.length = 36 ∧ s[8]? = some '-' ∧ s[13]? = some '-' ∧ s[18]? = some '-' ∧
      s[23]? = some '-' then
    ofSimple? (s.take 8 ++ (s.drop 9).take 4 ++ (s.drop 14).take 4 ++ (s.drop 19).take 4 ++
      s.drop 24)
  else none

/-- What may stand before the hyphenated form, in either case. -/
def urn : List Char := "urn:uuid:".toList

/-- The identifier that a text spells. -/
def parse? (text : String) : Option Id :=
  let s := text.toList
  if s.length = 32 then ofSimple? s
  else if s.length = 36 then ofHyphenated? s
  else if s.length = 38 ∧ s.head? = some '\x7b' ∧ s.getLast? = some '\x7d' then
    ofHyphenated? ((s.drop 1).take 36)
  else if s.length = 45 ∧ (s.take 9).map Char.toLower = urn then ofHyphenated? (s.drop 9)
  else none

/-- The identifier for a serial number: distinct below 2^96, with the marks of a random identifier
in the places where those carry them. -/
def ofSerial (n : Nat) : Id :=
  ⟨BitVec.ofNat 128 (0xa0000000000040008000000000000000 + n)⟩

end Id

end SnapshotStore
