import SnapshotStore.Text.Blank
import SnapshotStore.Time.Calendar

/-!
Points in time to the nanosecond and their text. A point is a second counted from 1970-01-01 and a
fraction; a leap second is the second before it with a fraction beyond one second, so that it keeps
its number 60.

The writer gives UTC with 0, 3, 6 or 9 places. The reader is lenient: blanks before each number of
the date and the time, `T`, `t` or one blank between the two, any number of decimals of which nine
count, and a zone of `Z`, `UTC` or a signed offset of hours and minutes, with colons or blanks or
nothing between them.
-/

namespace SnapshotStore

/-- A point in time. -/
structure Stamp where
  /-- Seconds since the beginning of 1970, in UTC. -/
  seconds : Int
  /-- Nanoseconds; from 10^9 on those of a leap second. -/
  nanos : Nat
  deriving DecidableEq, Repr, Inhabited

namespace Stamp

/-! ## Writing -/

/-- A number in at least `width` digits. -/
def padded (width n : Nat) : List Char :=
  let digits := Nat.toDigits 10 n
  List.replicate (width - digits.length) '0' ++ digits

/-- A year: four digits, and outside 0 to 9999 a sign before them. -/
def yearChars (year : Int) : List Char :=
  if 0 ≤ year ∧ year ≤ 9999 then padded 4 year.toNat
  else (if year < 0 then '-' else '+') :: padded 4 year.natAbs

/-- The fraction of a second in the fewest of 0, 3, 6 and 9 places. -/
def fractionChars (nanos : Nat) : List Char :=
  if nanos = 0 then []
  else if nanos % 1000000 = 0 then '.' :: padded 3 (nanos / 1000000)
  else if nanos % 1000 = 0 then '.' :: padded 6 (nanos / 1000)
  else '.' :: padded 9 nanos

/-- The characters of a point in time, with a given mark for UTC. -/
def chars (stamp : Stamp) (utc : List Char) : List Char :=
  let days := stamp.seconds.fdiv 86400
  let second := (stamp.seconds - days * 86400).toNat
  let date := Calendar.ofDays days
  let leap := stamp.nanos / 1000000000
  yearChars date.year ++ '-' :: padded 2 date.month ++ '-' :: padded 2 date.day ++
    'T' :: padded 2 (second / 3600) ++ ':' :: padded 2 (second / 60 % 60) ++
    ':' :: padded 2 (second % 60 + leap) ++ fractionChars (stamp.nanos % 1000000000) ++ utc

/-- The text of a point in time, UTC marked as `Z`. -/
def render (stamp : Stamp) : String := String.ofList (stamp.chars ['Z'])

/-- The text of a point in time, UTC marked as an offset of zero. -/
def renderOffset (stamp : Stamp) : String := String.ofList (stamp.chars "+00:00".toList)

/-! ## Reading -/

def ofDigits (digits : List Char) : Nat :=
  digits.foldl (fun acc c => acc * 10 + (c.toNat - 0x30)) 0

/-- Reads 1 to `most` digits. -/
def readNumber (most : Nat) (s : List Char) : Option (Nat × List Char) :=
  let digits := (s.takeWhile Char.isDigit).take most
  if digits.isEmpty then none else some (ofDigits digits, s.drop digits.length)

/-- Reads a number of two digits at most, after blanks. -/
def readPart (s : List Char) : Option (Nat × List Char) :=
  readNumber 2 (Blank.skip s)

/-- Reads a year: 1 to 4 digits, or any number of them after a sign. -/
def readYear (s : List Char) : Option (Int × List Char) :=
  match Blank.skip s with
  | '-' :: rest => (readNumber rest.length rest).map fun (n, rest) => (-(n : Int), rest)
  | '+' :: rest => (readNumber rest.length rest).map fun (n, rest) => ((n : Int), rest)
  | s => (readNumber 4 s).map fun (n, rest) => ((n : Int), rest)

/-- Reads a given character, after blanks. -/
def readMark (mark : Char) (s : List Char) : Option (List Char) :=
  match Blank.skip s with
  | c :: rest => if c = mark then some rest else none
  | [] => none

/-- Reads the fraction of a second, if one follows: nine of its digits count. -/
def readFraction (s : List Char) : Option (Nat × List Char) :=
  match s with
  | '.' :: rest =>
    let digits := rest.takeWhile Char.isDigit
    if digits.isEmpty then none
    else
      let counted := digits.take 9
      some (ofDigits counted * Nat.pow 10 (9 - counted.length), rest.drop digits.length)
  | s => some (0, s)

/-- Reads two digits, the first of which is not above `greatest`. -/
def readTwo (greatest : Char) (s : List Char) : Option (Nat × List Char) :=
  match s with
  | a :: b :: rest =>
    if a.isDigit ∧ b.isDigit ∧ a ≤ greatest then some (ofDigits [a, b], rest) else none
  | _ => none

/-- Reads a zone: its offset from UTC in seconds. -/
def readZone (s : List Char) : Option (Int × List Char) :=
  match s with
  | u :: t :: c :: rest =>
    if [u, t, c].map Char.toUpper = ['U', 'T', 'C'] then some (0, rest) else offset s
  | s => offset s
where
  offset : List Char → Option (Int × List Char)
    | 'Z' :: rest | 'z' :: rest => some (0, rest)
    | sign :: rest =>
      if sign = '+' ∨ sign = '-' ∨ sign = '−' then do
        let (hours, rest) ← readTwo '9' rest
        let (minutes, rest) ← readTwo '5' (rest.dropWhile fun c => c = ':' || Blank.isBlank c)
        let seconds : Int := hours * 3600 + minutes * 60
        pure (if sign = '+' then seconds else -seconds, rest)
      else none
    | [] => none

/-- Whether a year can be counted in days. -/
def isCountable (year : Int) : Bool := -262143 ≤ year && year ≤ 262142

/-- The point in time of a date, a time of day and an offset, if all of them exist; the year must be
countable as it is written and also in UTC. -/
def assemble (date : Calendar.Date) (hour minute second nanos : Nat) (offset : Int) :
    Option Stamp :=
  if date.isValid ∧ isCountable date.year ∧ hour < 24 ∧ minute < 60 ∧ second ≤ 60 ∧
      -86400 < offset ∧ offset < 86400 then
    let leap := if second = 60 then 1 else 0
    let seconds : Int :=
      Calendar.toDays date * 86400 + hour * 3600 + minute * 60 + (second - leap : Nat) - offset
    if isCountable (Calendar.ofDays (seconds.fdiv 86400)).year then
      some ⟨seconds, nanos + leap * 1000000000⟩
    else none
  else none

/-- The point in time that a text spells. -/
def parse? (text : String) : Option Stamp := do
  let (year, s) ← readYear text.toList
  let s ← readMark '-' s
  let (month, s) ← readPart s
  let s ← readMark '-' s
  let (day, s) ← readPart s
  let s ← match s with
    | 'T' :: s | 't' :: s | ' ' :: s => some s
    | _ => none
  let (hour, s) ← readPart s
  let s ← readMark ':' s
  let (minute, s) ← readPart s
  let s ← readMark ':' s
  let (second, s) ← readPart s
  let (nanos, s) ← readFraction s
  let (offset, s) ← readZone (Blank.skip s)
  if (Blank.skip s).isEmpty then assemble ⟨year, month, day⟩ hour minute second nanos offset
  else none

end Stamp

end SnapshotStore
