import SnapshotStore.Bytes.Hex
import SnapshotStore.OrderedMap

/-!
JSON values and their text. An object lists its members; a value that is stored on its own has them
in ascending order of names (`Json.ofMembers`), while a record keeps the order of its fields. There
are two layouts: compact, without a blank, and indented by two blanks a level.
-/

namespace SnapshotStore

/-- A number: whole, or a decimal `mantissa * 10 ^ exponent` that was not written as a whole one. A
decimal is kept as it is spelled, where a reader in double precision would round it. -/
inductive Number where
  | whole (n : Int)
  | decimal (mantissa exponent : Int)
  deriving DecidableEq, Repr, Inhabited

/-- A JSON value. -/
inductive Json where
  | null
  | bool (b : Bool)
  | number (n : Number)
  | string (text : String)
  | array (items : List Json)
  | object (members : List (String × Json))
  deriving Repr, Inhabited

namespace Json

/-- A whole number. -/
def int (n : Int) : Json := .number (.whole n)

/-- The object with these members in ascending order of names; the last one of a name counts. -/
def ofMembers (members : List (String × Json)) : Json :=
  .object (OrderedMap.ofList members).toList

/-! ## Equality -/

mutual

/-- Whether two values are the same, members in the same order. -/
def same : Json → Json → Bool
  | .null, .null => true
  | .bool a, .bool b => a == b
  | .number a, .number b => decide (a = b)
  | .string a, .string b => a == b
  | .array a, .array b => sameItems a b
  | .object a, .object b => sameMembers a b
  | _, _ => false

/-- Whether two lists hold the same values. -/
def sameItems : List Json → List Json → Bool
  | [], [] => true
  | a :: as, b :: bs => same a b && sameItems as bs
  | _, _ => false

/-- Whether two lists hold the same members. -/
def sameMembers : List (String × Json) → List (String × Json) → Bool
  | [], [] => true
  | (k, a) :: as, (l, b) :: bs => k == l && same a b && sameMembers as bs
  | _, _ => false

end

instance : BEq Json := ⟨same⟩

/-! ## Text -/

/-- How one character stands inside quotes: quotes, backslashes and control characters are escaped,
all else stands as it is. -/
def escape (c : Char) : List Char :=
  match c with
  | '"' => ['\\', '"']
  | '\\' => ['\\', '\\']
  | '\x08' => ['\\', 'b']
  | '\x0c' => ['\\', 'f']
  | '\n' => ['\\', 'n']
  | '\r' => ['\\', 'r']
  | '\t' => ['\\', 't']
  | c =>
    if c.toNat < 0x20 then
      ['\\', 'u', '0', '0', Hex.digit (c.toNat / 16), Hex.digit (c.toNat % 16)]
    else [c]

/-- A text in quotes. -/
def quoted (text : String) : List Char :=
  '"' :: (text.toList.flatMap escape ++ ['"'])

def Number.chars : Number → List Char
  | .whole n => (toString n).toList
  | .decimal mantissa exponent => (toString mantissa).toList ++ 'e' :: (toString exponent).toList

mutual

/-- The compact text of a value. -/
def compact : Json → List Char
  | .null => "null".toList
  | .bool true => "true".toList
  | .bool false => "false".toList
  | .number n => Number.chars n
  | .string text => quoted text
  | .array [] => ['[', ']']
  | .array (v :: rest) => '[' :: (compact v ++ compactItems rest ++ [']'])
  | .object [] => ['\x7b', '\x7d']
  | .object ((k, v) :: rest) =>
    '\x7b' :: (quoted k ++ ':' :: (compact v ++ compactMembers rest ++ ['\x7d']))

/-- Further items, each after a comma. -/
def compactItems : List Json → List Char
  | [] => []
  | v :: rest => ',' :: (compact v ++ compactItems rest)

/-- Further members, each after a comma. -/
def compactMembers : List (String × Json) → List Char
  | [] => []
  | (k, v) :: rest => ',' :: (quoted k ++ ':' :: (compact v ++ compactMembers rest))

end

/-- A line end and the blanks of a level. -/
def newLine (level : Nat) : List Char :=
  '\n' :: List.replicate (2 * level) ' '

mutual

/-- The indented text of a value that stands at a level. -/
def indented (level : Nat) : Json → List Char
  | .array [] => ['[', ']']
  | .array (v :: rest) =>
    '[' :: (newLine (level + 1) ++ indented (level + 1) v ++ indentedItems (level + 1) rest ++
      newLine level ++ [']'])
  | .object [] => ['\x7b', '\x7d']
  | .object ((k, v) :: rest) =>
    '\x7b' :: (newLine (level + 1) ++ quoted k ++ ':' :: ' ' ::
      (indented (level + 1) v ++ indentedMembers (level + 1) rest ++ newLine level ++ ['\x7d']))
  | v => compact v

/-- Further items, each after a comma on a line of its own. -/
def indentedItems (level : Nat) : List Json → List Char
  | [] => []
  | v :: rest => ',' :: (newLine level ++ indented level v ++ indentedItems level rest)

/-- Further members, each after a comma on a line of its own. -/
def indentedMembers (level : Nat) : List (String × Json) → List Char
  | [] => []
  | (k, v) :: rest =>
    ',' :: (newLine level ++ quoted k ++ ':' :: ' ' ::
      (indented level v ++ indentedMembers level rest))

end

def render (v : Json) : String := String.ofList v.compact

/-- The indented text of a value. -/
def renderIndented (v : Json) : String := String.ofList (v.indented 0)

end Json

end SnapshotStore
