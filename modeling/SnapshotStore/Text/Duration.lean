/-!
Lengths of time as text: the largest of the units s, ms, µs and ns that the length reaches, with the
fraction written to its last digit other than zero.
-/

namespace SnapshotStore.Duration

/-- The digits of a fraction below `10 ^ width`, without trailing zeros. -/
def fractionDigits (width fraction : Nat) : List Char :=
  let digits := Nat.toDigits 10 fraction
  let padded := List.replicate (width - digits.length) '0' ++ digits
  (padded.reverse.dropWhile (· = '0')).reverse

/-- `whole` with a fraction of `width` decimal places, in a unit. -/
def inUnit (whole width fraction : Nat) (unit : String) : String :=
  if fraction = 0 then s!"{whole}{unit}"
  else s!"{whole}.{String.ofList (fractionDigits width fraction)}{unit}"

/-- The text of a length of time in nanoseconds. -/
def ofNanos (nanos : Nat) : String :=
  if 1000000000 ≤ nanos then inUnit (nanos / 1000000000) 9 (nanos % 1000000000) "s"
  else if 1000000 ≤ nanos then inUnit (nanos / 1000000) 6 (nanos % 1000000) "ms"
  else if 1000 ≤ nanos then inUnit (nanos / 1000) 3 (nanos % 1000) "µs"
  else inUnit nanos 0 0 "ns"

end SnapshotStore.Duration
