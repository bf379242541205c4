import SnapshotStore.Cipher.Aes

/-!
Authenticated encryption in counter mode (NIST SP 800-38D) with nonces of 96 bits, tags of 128 bits
and no further data. Main statements: counter mode undoes itself (`applyStream_applyStream`), and
`unseal?` gives a plaintext exactly for what `sealed` makes of it (`unseal?_eq_some_iff`).
-/

namespace SnapshotStore.Gcm

/-! ## The field -/

/-- The product of two elements of the field of 2^128 elements, the first coefficient in the highest
bit: for each bit of the first, highest first, the second times the next power. -/
def mulBits (x : BitVec 128) : (count : Nat) → (v z : BitVec 128) → BitVec 128
  | 0, _, z => z
  | count + 1, v, z =>
    let z := if x.getLsbD count then z ^^^ v else z
    let half := v >>> 1
    mulBits x count (if v.getLsbD 0 then half ^^^ (0xE1 : BitVec 128) <<< 120 else half) z

def mul (x y : BitVec 128) : BitVec 128 := mulBits x 128 y 0

/-- The field element of at most 16 bytes, filled up with zeros. -/
def element (bytes : Bytes) : BitVec 128 :=
  BitVec.ofNat 128 (Bytes.toNat (bytes ++ List.replicate (16 - bytes.length) 0))

/-- The field elements of bytes, 16 bytes each. -/
def elements : Bytes → List (BitVec 128)
  | [] => []
  | b :: rest => element ((b :: rest).take 16) :: elements (rest.drop 15)
termination_by s => s.length
decreasing_by
  simp only [List.length_drop, List.length_cons]
  omega

/-- The value at `h` of the polynomial with these coefficients and no constant one. -/
def evaluate (h : BitVec 128) (coefficients : List (BitVec 128)) : BitVec 128 :=
  coefficients.foldl (fun acc c => mul (acc ^^^ c) h) 0

/-! ## Streams -/

/-- Twelve bytes that must be used once only with a key. -/
structure Nonce where
  bytes : Bytes
  length_bytes : bytes.length = 12

/-- The nonce for a serial number. -/
def Nonce.ofSerial (n : Nat) : Nonce := ⟨Bytes.bigEndian 12 n, Bytes.length_bigEndian 12 n⟩

/-- The block of bytes, filled up with zeros. -/
def toBlock (bytes : Bytes) : Aes.Block :=
  Vector.ofFn fun i : Fin 16 => (bytes[i.val]?).getD 0

/-- The key's answer to a counter. -/
def counterBlock (words : Array Aes.Word) (nonce : Nonce) (counter : Nat) : Bytes :=
  (Aes.encryptWith words (toBlock (nonce.bytes ++ Bytes.bigEndian 4 counter))).toList

/-- At least `length` bytes that depend on key and nonce alone. -/
def stream (words : Array Aes.Word) (nonce : Nonce) (length : Nat) : Bytes :=
  (List.range (length / 16 + 1)).flatMap fun i => counterBlock words nonce (i + 2)

/-- The bytes, each added to the byte of the stream at its place. -/
def applyStream (words : Array Aes.Word) (nonce : Nonce) (bytes : Bytes) : Bytes :=
  List.zipWith (· ^^^ ·) bytes (stream words nonce bytes.length)

@[simp] theorem length_counterBlock (words : Array Aes.Word) (nonce : Nonce) (counter : Nat) :
    (counterBlock words nonce counter).length = 16 := by
  simp [counterBlock]

theorem length_stream (words : Array Aes.Word) (nonce : Nonce) (length : Nat) :
    length ≤ (stream words nonce length).length := by
  have (n : Nat) : ((List.range n).flatMap fun i => counterBlock words nonce (i + 2)).length
      = 16 * n := by
    induction n with
    | zero => rfl
    | succ n ih => simp [List.range_succ, ih, Nat.mul_succ]
  rw [stream, this]
  omega

@[simp] theorem length_applyStream (words : Array Aes.Word) (nonce : Nonce) (bytes : Bytes) :
    (applyStream words nonce bytes).length = bytes.length := by
  simp [applyStream, Nat.min_eq_left (length_stream words nonce bytes.length)]

private theorem zipWith_xor_cancel (a b : Bytes) (h : a.length ≤ b.length) :
    List.zipWith (· ^^^ ·) (List.zipWith (· ^^^ ·) a b) b = a := by
  induction a generalizing b with
  | nil => simp
  | cons x a ih =>
    cases b with
    | nil => simp at h
    | cons y b =>
      simp only [List.zipWith_cons_cons, List.cons.injEq]
      exact ⟨by rw [UInt8.xor_assoc, UInt8.xor_self, UInt8.xor_zero], ih b (by simpa using h)⟩

/-- Counter mode undoes itself. -/
theorem applyStream_applyStream (words : Array Aes.Word) (nonce : Nonce) (bytes : Bytes) :
    applyStream words nonce (applyStream words nonce bytes) = bytes := by
  rw [applyStream, length_applyStream]
  exact zipWith_xor_cancel _ _ (length_stream words nonce bytes.length)

/-! ## Seals -/

def tag (words : Array Aes.Word) (nonce : Nonce) (ciphertext : Bytes) : Bytes :=
  let h := element (Aes.encryptWith words (Vector.replicate 16 0)).toList
  let lengths := BitVec.ofNat 128 (8 * ciphertext.length)
  let digest := evaluate h (elements ciphertext ++ [lengths])
  Bytes.bigEndian 16 (digest ^^^ element (counterBlock words nonce 1)).toNat

@[simp] theorem length_tag (words : Array Aes.Word) (nonce : Nonce) (ciphertext : Bytes) :
    (tag words nonce ciphertext).length = 16 := by
  simp [tag]

/-- A plaintext under a key and a nonce: its ciphertext and the tag of that. -/
def sealed (key : Aes.Key) (nonce : Nonce) (plaintext : Bytes) : Bytes :=
  let words := Aes.schedule key
  let ciphertext := applyStream words nonce plaintext
  ciphertext ++ tag words nonce ciphertext

/-- The plaintext of a seal, unless its tag is not the one of its ciphertext. -/
def unseal? (key : Aes.Key) (nonce : Nonce) (box : Bytes) : Option Bytes :=
  let words := Aes.schedule key
  let ciphertext := box.take (box.length - 16)
  if box.drop (box.length - 16) = tag words nonce ciphertext then
    some (applyStream words nonce ciphertext)
  else none

theorem unseal?_sealed (key : Aes.Key) (nonce : Nonce) (plaintext : Bytes) :
    unseal? key nonce (sealed key nonce plaintext) = some plaintext := by
  simp [unseal?, sealed, applyStream_applyStream]

theorem unseal?_eq_some_iff {key : Aes.Key} {nonce : Nonce} {box plaintext : Bytes} :
    unseal? key nonce box = some plaintext ↔ box = sealed key nonce plaintext := by
  constructor
  · intro h
    unfold unseal? at h
    simp only at h
    split at h
    · next htag =>
      simp only [Option.some.injEq] at h
      subst h
      simp only [sealed, applyStream_applyStream]
      rw [← htag, List.take_append_drop]
    · simp at h
  · rintro rfl
    exact unseal?_sealed key nonce plaintext

end SnapshotStore.Gcm
