import SnapshotStore.Text.Utf8
import SnapshotStore.Json.Numeral

/-!
JSON text as it is spelled. Reading has two steps. `Spelling.read?` follows the grammar and keeps
texts and numbers as spelled: an escape of half a character, a byte that is no text, a number beyond
every range or deep nesting are all still there. What a reader then asks for decides: `text?`,
`whole?` and `value?` refuse what has no meaning, and a member that nobody asks for is never looked
at.
-/

namespace SnapshotStore

/-- A piece of a quoted text: a byte that stands for itself, an escape for one byte, or an escape
for a UTF-16 unit. -/
inductive Piece where
  | byte (b : UInt8)
  | escaped (b : UInt8)
  | unit (n : Nat)
  deriving DecidableEq, Repr

/-- A JSON text, its texts and numbers as spelled. -/
inductive Spelling where
  | null
  | bool (b : Bool)
  | number (n : Numeral)
  | string (pieces : List Piece)
  | array (items : List Spelling)
  | object (members : List (List Piece × Spelling))
  deriving Repr

namespace Spelling

/-! ## Blanks, texts and numbers -/

/-- Whether a byte may stand between tokens. -/
def isBlank (b : UInt8) : Bool :=
  b = 0x20 || b = 0x09 || b = 0x0A || b = 0x0D

/-- The input after its leading blanks. -/
def skip (s : Bytes) : Bytes := s.dropWhile isBlank

/-- The byte that a one-letter escape stands for. -/
def escapedByte? (b : UInt8) : Option UInt8 :=
  if b = 0x22 then some 0x22
  else if b = 0x5C then some 0x5C
  else if b = 0x2F then some 0x2F
  else if b = 0x62 then some 0x08
  else if b = 0x66 then some 0x0C
  else if b = 0x6E then some 0x0A
  else if b = 0x72 then some 0x0D
  else if b = 0x74 then some 0x09
  else none

def hexDigit? (b : UInt8) : Option Nat := Hex.digitValue? (Char.ofNat b.toNat)

/-- The pieces up to the closing quote, and what follows it. Control characters must be escaped. -/
def readPieces : Bytes → Option (List Piece × Bytes)
  | [] => none
  | b :: s =>
    if b = 0x22 then some ([], s)
    else if b = 0x5C then
      match s with
      | [] => none
      | e :: s =>
        if e = 0x75 then
          match s with
          | h1 :: h2 :: h3 :: h4 :: s => do
            let d1 ← hexDigit? h1
            let d2 ← hexDigit? h2
            let d3 ← hexDigit? h3
            let d4 ← hexDigit? h4
            let (pieces, rest) ← readPieces s
            pure (.unit (((d1 * 16 + d2) * 16 + d3) * 16 + d4) :: pieces, rest)
          | _ => none
        else do
          let byte ← escapedByte? e
          let (pieces, rest) ← readPieces s
          pure (.escaped byte :: pieces, rest)
    else if b < 0x20 then none
    else do
      let (pieces, rest) ← readPieces s
      pure (.byte b :: pieces, rest)

def isDigit (b : UInt8) : Bool := 0x30 ≤ b && b ≤ 0x39

def digitValues (digits : Bytes) : List Nat := digits.map fun b => b.toNat - 0x30

/-- Reads the exponent of a number, if one follows. -/
def readExponent (s : Bytes) : Option (Option Int × Bytes) :=
  match s with
  | e :: s' =>
    if e = 0x65 ∨ e = 0x45 then
      let (negative, s') := match s' with
        | sign :: s'' =>
          if sign = 0x2D then (true, s'') else if sign = 0x2B then (false, s'') else (false, s')
        | [] => (false, [])
      let digits := s'.takeWhile isDigit
      if digits.isEmpty then none
      else
        let n : Int := Numeral.ofDigits (digitValues digits)
        some (some (if negative then -n else n), s'.dropWhile isDigit)
    else some (none, s)
  | [] => some (none, [])

/-- Reads the fraction of a number, if one follows: its digits. -/
def readFraction (s : Bytes) : Option (Option Bytes × Bytes) :=
  match s with
  | p :: s' =>
    if p = 0x2E then
      let digits := s'.takeWhile isDigit
      if digits.isEmpty then none else some (some digits, s'.dropWhile isDigit)
    else some (none, s)
  | [] => some (none, [])

/-- Reads a number: an optional minus, digits without a leading zero, fraction and exponent. -/
def readNumeral (s : Bytes) : Option (Numeral × Bytes) := do
  let (negative, s) := match s with
    | b :: s' => if b = 0x2D then (true, s') else (false, s)
    | [] => (false, [])
  let digits := s.takeWhile isDigit
  if digits.isEmpty ∨ (digits.head? = some 0x30 ∧ 1 < digits.length) then none
  else
    let (fraction, s) ← readFraction (s.dropWhile isDigit)
    let (exponent, s) ← readExponent s
    pure (⟨negative, digitValues digits, fraction.map digitValues, exponent⟩, s)

/-- What follows a given beginning. -/
def after? : (word : Bytes) → Bytes → Option Bytes
  | [], s => some s
  | _ :: _, [] => none
  | w :: word, b :: s => if w = b then after? word s else none

/-! ## Values -/

mutual

/-- Reads a value. The fuel bounds the steps; each step takes at least one byte. -/
def readValue : (fuel : Nat) → Bytes → Option (Spelling × Bytes)
  | 0, _ => none
  | fuel + 1, s =>
    match skip s with
    | [] => none
    | b :: rest =>
      if b = 0x6E then (after? [0x75, 0x6C, 0x6C] rest).map (.null, ·)
      else if b = 0x74 then (after? [0x72, 0x75, 0x65] rest).map (.bool true, ·)
      else if b = 0x66 then (after? [0x61, 0x6C, 0x73, 0x65] rest).map (.bool false, ·)
      else if b = 0x22 then (readPieces rest).map fun (pieces, rest) => (.string pieces, rest)
      else if b = 0x5B then
        match skip rest with
        | [] => none
        | c :: inner =>
          if c = 0x5D then some (.array [], inner)
          else (readItems fuel rest).map fun (items, rest) => (.array items, rest)
      else if b = 0x7B then
        match skip rest with
        | [] => none
        | c :: inner =>
          if c = 0x7D then some (.object [], inner)
          else (readMembers fuel rest).map fun (members, rest) => (.object members, rest)
      else (readNumeral (b :: rest)).map fun (n, rest) => (.number n, rest)

/-- Reads the items of an array up to its end, of which there is at least one. -/
def readItems : (fuel : Nat) → Bytes → Option (List Spelling × Bytes)
  | 0, _ => none
  | fuel + 1, s => do
    let (item, rest) ← readValue fuel s
    match skip rest with
    | [] => none
    | b :: rest =>
      if b = 0x5D then some ([item], rest)
      else if b = 0x2C then do
        let (items, rest) ← readItems fuel rest
        pure (item :: items, rest)
      else none

/-- Reads the members of an object up to its end, of which there is at least one. -/
def readMembers : (fuel : Nat) → Bytes → Option (List (List Piece × Spelling) × Bytes)
  | 0, _ => none
  | fuel + 1, s =>
    match skip s with
    | [] => none
    | q :: rest =>
      if q = 0x22 then do
        let (name, rest) ← readPieces rest
        match skip rest with
        | [] => none
        | c :: rest =>
          if c = 0x3A then do
            let (item, rest) ← readValue fuel rest
            match skip rest with
            | [] => none
            | b :: rest =>
              if b = 0x7D then some ([(name, item)], rest)
              else if b = 0x2C then do
                let (members, rest) ← readMembers fuel rest
                pure ((name, item) :: members, rest)
              else none
          else none
      else none

end

/-- Reads a whole text: one value with nothing but blanks around it. -/
def read? (s : Bytes) : Option Spelling :=
  match readValue (2 * s.length + 1) s with
  | some (spelling, rest) => if (skip rest).isEmpty then some spelling else none
  | none => none

/-! ## Meaning -/

/-- The bytes that pieces stand for. Units of a pair must follow each other; a lone half means
nothing. -/
def pieceBytes? : List Piece → Option Bytes
  | [] => some []
  | .byte b :: rest => (pieceBytes? rest).map (b :: ·)
  | .escaped b :: rest => (pieceBytes? rest).map (b :: ·)
  | .unit n :: rest =>
    if 0xD800 ≤ n ∧ n ≤ 0xDBFF then
      match rest with
      | .unit m :: rest =>
        if 0xDC00 ≤ m ∧ m ≤ 0xDFFF then
          let c := Char.ofNat (0x10000 + (n - 0xD800) * 0x400 + (m - 0xDC00))
          (pieceBytes? rest).map (String.utf8EncodeChar c ++ ·)
        else none
      | _ => none
    else if 0xDC00 ≤ n ∧ n ≤ 0xDFFF then none
    else (pieceBytes? rest).map (String.utf8EncodeChar (Char.ofNat n) ++ ·)

/-- The text that pieces stand for. -/
def piecesText? (pieces : List Piece) : Option String :=
  (pieceBytes? pieces).bind Utf8.decode?

/-- The text of a quoted text. -/
def text? : Spelling → Option String
  | .string pieces => piecesText? pieces
  | _ => none

/-- The whole number between two bounds that a number spells. -/
def whole? (least greatest : Int) : Spelling → Option Int
  | .number n => do
    let i ← n.whole?
    if least ≤ i ∧ i ≤ greatest then some i else none
  | _ => none

mutual

/-- The value of a spelling nested at most `levels` deep. Members are put in order of names; the
last one of a name counts. -/
def value? : (levels : Nat) → Spelling → Option Json
  | _, .null => some .null
  | _, .bool b => some (.bool b)
  | _, .number n => n.number?.map .number
  | _, .string pieces => (piecesText? pieces).map .string
  | 0, .array _ => none
  | levels + 1, .array items => (items? levels items).map .array
  | 0, .object _ => none
  | levels + 1, .object members => (members? levels members).map Json.ofMembers

def items? : (levels : Nat) → List Spelling → Option (List Json)
  | _, [] => some []
  | levels, s :: rest => do
    let v ← value? levels s
    let vs ← items? levels rest
    pure (v :: vs)

def members? : (levels : Nat) → List (List Piece × Spelling) → Option (List (String × Json))
  | _, [] => some []
  | levels, (name, s) :: rest => do
    let k ← piecesText? name
    let v ← value? levels s
    let vs ← members? levels rest
    pure ((k, v) :: vs)

end

/-! ## Records -/

/-- The names of members, each of which must be a text. -/
def named? : List (List Piece × Spelling) → Option (List (String × Spelling))
  | [] => some []
  | (name, s) :: rest => do
    let k ← piecesText? name
    let others ← named? rest
    pure ((k, s) :: others)

/-- The one member of a name; none and several are refused alike. -/
def only? (name : String) (members : List (String × Spelling)) : Option Spelling :=
  match members.filter (·.1 = name) with
  | [(_, s)] => some s
  | _ => none

/-- The fields of a record, in the order of `names`: an object that has each name once, whatever
else it has, or an array of exactly these fields. -/
def fields? (names : List String) : Spelling → Option (List Spelling)
  | .array items => if items.length = names.length then some items else none
  | .object members => do
    let members ← named? members
    names.mapM fun name => only? name members
  | _ => none

/-- The name of an alternative without fields: the name itself, or an object whose one member has
this name and holds null. -/
def alternative? : Spelling → Option String
  | .string pieces => piecesText? pieces
  | .object [(name, .null)] => piecesText? name
  | _ => none

end Spelling

end SnapshotStore
