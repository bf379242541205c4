import SnapshotStore.Bytes.Basic

/-!
The block cipher of FIPS 197 with keys of 256 bits, in the direction that counter mode needs. Bytes
are elements of the field of 256 elements with `x^8 = x^4 + x^3 + x + 1`; the substitution is
computed from the inverse in that field. A block is 16 bytes, column after column.
-/

namespace SnapshotStore.Aes

/-! ## The field -/

def double (a : UInt8) : UInt8 :=
  (a <<< 1) ^^^ (if a < 0x80 then 0 else 0x1B)

/-- The product of two field elements, by the low `count` bits of the second. -/
def mulBits : (count : Nat) → (a b : UInt8) → UInt8
  | 0, _, _ => 0
  | count + 1, a, b => (if b % 2 = 1 then a else 0) ^^^ mulBits count (double a) (b / 2)

def mul (a b : UInt8) : UInt8 := mulBits 8 a b

/-- The inverse of a field element: its power with exponent 254. Zero is its own. -/
def inverse (a : UInt8) : UInt8 :=
  let a2 := mul a a
  let a4 := mul a2 a2
  let a8 := mul a4 a4
  let a16 := mul a8 a8
  let a32 := mul a16 a16
  let a64 := mul a32 a32
  let a128 := mul a64 a64
  mul a2 (mul a4 (mul a8 (mul a16 (mul a32 (mul a64 a128)))))

/-- A byte turned left by some bits. -/
def rotate (a : UInt8) (bits : UInt8) : UInt8 :=
  (a <<< bits) ||| (a >>> (8 - bits))

/-- The substitute of a byte. -/
def substitute (a : UInt8) : UInt8 :=
  let i := inverse a
  i ^^^ rotate i 1 ^^^ rotate i 2 ^^^ rotate i 3 ^^^ rotate i 4 ^^^ 0x63

/-- The substitutes of all bytes. -/
def substitutes : Vector UInt8 256 :=
  Vector.ofFn fun i : Fin 256 => substitute (UInt8.ofNat i.val)

/-- The substitute of a byte, looked up. -/
def lookUp (a : UInt8) : UInt8 :=
  substitutes[a.toFin]

theorem lookUp_eq_substitute (a : UInt8) : lookUp a = substitute a := by
  simp [lookUp, substitutes]

/-! ## Keys -/

/-- Four bytes: a column of a block. -/
abbrev Word := Vector UInt8 4

/-- Sixteen bytes, column after column. -/
abbrev Block := Vector UInt8 16

/-- A key of 256 bits. -/
structure Key where
  bytes : Bytes
  length_bytes : bytes.length = 32

def addWords (a b : Word) : Word := Vector.zipWith (· ^^^ ·) a b

/-- The word that goes into word `i` of the schedule beside the one eight places before it. -/
def mixWord (i : Nat) (last : Word) : Word :=
  if i % 8 = 0 then
    let turned : Word := Vector.ofFn fun r : Fin 4 => lookUp last[(r.val + 1) % 4]
    addWords turned #v[Nat.repeat double (i / 8 - 1) 1, 0, 0, 0]
  else if i % 8 = 4 then last.map lookUp
  else last

/-- The first eight words of the schedule, which are the key. -/
def firstWords (key : Key) : Array Word :=
  (Array.range 8).map fun i =>
    Vector.ofFn fun r : Fin 4 => (key.bytes[4 * i + r.val]?).getD 0

def schedule (key : Key) : Array Word :=
  (List.range 52).foldl
    (fun words i =>
      let word (back : Nat) : Word := words.getD (words.size - back) (Vector.replicate 4 0)
      words.push (addWords (word 8) (mixWord (i + 8) (word 1))))
    (firstWords key)

def roundKey (words : Array Word) (round : Nat) : Block :=
  Vector.ofFn fun i : Fin 16 =>
    let word : Word := words.getD (4 * round + i.val / 4) (Vector.replicate 4 0)
    word.get ⟨i.val % 4, by omega⟩

/-! ## Blocks -/

def addBlocks (a b : Block) : Block := Vector.zipWith (· ^^^ ·) a b

/-- Substitutes each byte and turns row `r` left by `r` places. -/
def substituteAndShift (s : Block) : Block :=
  Vector.ofFn fun i : Fin 16 =>
    lookUp (s.get ⟨4 * ((i.val / 4 + i.val % 4) % 4) + i.val % 4, by omega⟩)

/-- Multiplies each column by `2 + x + x^2 + 3 x^3`. -/
def mixColumns (s : Block) : Block :=
  Vector.ofFn fun i : Fin 16 =>
    let entry (r : Nat) : UInt8 := s.get ⟨4 * (i.val / 4) + (i.val + r) % 4, by omega⟩
    double (entry 0) ^^^ (double (entry 1) ^^^ entry 1) ^^^ entry 2 ^^^ entry 3

/-- A block after the rounds of a schedule. -/
def encryptWith (words : Array Word) (block : Block) : Block :=
  let start := addBlocks block (roundKey words 0)
  let middle := (List.range 13).foldl
    (fun s round =>
      addBlocks (mixColumns (substituteAndShift s)) (roundKey words (round + 1))) start
  addBlocks (substituteAndShift middle) (roundKey words 14)

end SnapshotStore.Aes
