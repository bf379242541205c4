import SnapshotStore.Json.Value

/-!
Numbers as JSON text spells them, and what a reader takes them for. A whole number in the range of
64-bit integers is exact. Any other is a decimal, and it must not be too large for double precision.
Its magnitude is measured as a double-precision reader computes it: the leading digits that fit 64
bits and the power of ten that scales them are each rounded, and then their product is.
-/

namespace SnapshotStore

/-- A number as spelled. -/
structure Numeral where
  negative : Bool
  /-- The digits before the point. -/
  integer : List Nat
  /-- The digits after the point, if there is one. -/
  fraction : Option (List Nat)
  exponent : Option Int
  deriving DecidableEq, Repr

namespace Numeral

def ofDigits (digits : List Nat) : Nat := digits.foldl (fun acc d => acc * 10 + d) 0

/-! ## Magnitude -/

/-- Appends decimal digits to a number as long as it fits 64 bits: the number, and how many digits
were appended. -/
def appendDigits (n : Nat) : List Nat → Nat × Nat
  | [] => (n, 0)
  | d :: rest =>
    if n * 10 + d < 18446744073709551616 then
      let (m, count) := appendDigits (n * 10 + d) rest
      (m, count + 1)
    else (n, 0)

/-- The leading digits that fit 64 bits, and the power of ten that scales them. Digits before the
point that no longer fit raise it, digits after the point lower it. -/
def leading (n : Numeral) : Nat × Int :=
  let (whole, count) := appendDigits 0 n.integer
  let (all, further) := appendDigits whole (n.fraction.getD [])
  (all, n.exponent.getD 0 + (n.integer.length - count : Nat) - further)

/-- The natural number of 53 significant bits nearest to a number; of two, the even one. -/
def toDouble (n : Nat) : Nat :=
  let unit := 1 <<< (n.log2 + 1 - 53)
  let rest := n % unit
  let isUp := unit < 2 * rest || 2 * rest = unit && n / unit % 2 = 1
  (n / unit + if isUp then 1 else 0) * unit

/-- The least magnitude that rounds beyond the greatest double-precision number. -/
def doubleLimit : Nat := 1 <<< 1024 - 1 <<< 970

/-- Whether a decimal is too large for a double-precision number. -/
def isTooLarge (n : Numeral) : Bool :=
  let (digits, scale) := n.leading
  if digits = 0 ∨ scale < 0 then false
  else if 308 < scale then true
  else decide (doubleLimit ≤ toDouble digits * toDouble (Nat.pow 10 scale.toNat))

/-! ## Meaning -/

/-- The whole number that a numeral spells, if it has neither a point nor an exponent. Minus zero is
not taken for one. -/
def whole? (n : Numeral) : Option Int :=
  let magnitude := ofDigits n.integer
  if n.fraction.isSome ∨ n.exponent.isSome ∨ (n.negative ∧ magnitude = 0) then none
  else some (if n.negative then -(magnitude : Int) else magnitude)

/-- The number that a numeral means: a whole one from -2^63 to 2^64 - 1 stays whole, any other is a
decimal, which must not be too large. -/
def number? (n : Numeral) : Option Number :=
  match n.whole? with
  | some i =>
    if -9223372036854775808 ≤ i ∧ i ≤ 18446744073709551615 then some (.whole i) else decimal
  | none => decimal
where
  decimal : Option Number :=
    if n.isTooLarge then none
    else
      let fraction := n.fraction.getD []
      let magnitude := ofDigits (n.integer ++ fraction)
      some (.decimal (if n.negative then -(magnitude : Int) else magnitude)
        (n.exponent.getD 0 - fraction.length))

end Numeral

end SnapshotStore
