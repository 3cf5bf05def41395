import TlsTransport.Bytes

/-! # What the digests share

A message is padded with a one bit, zeros, and its length in bits at the end of the last block, and
is taken in block by block. The SHA-2 digests take their constants from the fractions of the square
and cube roots of the first primes, so they are computed here and not listed.

* `Digest.pad`, `Digest.pieces`: the blocks of a message.
* `Digest.roundWords`, `Digest.startWords`: the constants.
-/

namespace TlsTransport.Digest

/-! ## Blocks -/

/-- A message padded to whole blocks of `block` bytes whose last `width` bytes hold its length. -/
def pad (block width : Nat) (message : Bytes) : Bytes :=
  let zeros := (block - (message.length + 1 + width) % block) % block
  message ++ 0x80 :: List.replicate zeros 0 ++ Bytes.ofNat width (8 * message.length)

/-- Cuts a byte string into pieces of `size` bytes, the last one possibly shorter. -/
def pieces (size : Nat) (bytes : Bytes) : List Bytes :=
  if size = 0 then []
  else if bytes.isEmpty then []
  else bytes.take size :: pieces size (bytes.drop size)
termination_by bytes.length
decreasing_by
  have hne : bytes ≠ [] := by simpa using ‹¬bytes.isEmpty = true›
  have := List.length_pos_iff.2 hne
  simp only [List.length_drop]; omega

/-! ## Constants -/

/-- Whether a number has no divisor other than one and itself. -/
def isPrime (n : Nat) : Bool := 2 ≤ n && (List.range n).all fun d => d < 2 || n % d != 0

/-- The first eighty primes; the eightieth is 409. -/
def primes : List Nat := (List.range 410).filter isPrime

/-- The largest number below `2 ^ bits` that passes a test which holds from zero up to it. -/
def largest (passes : Nat → Bool) : Nat → Nat
  | 0 => 0
  | bits + 1 =>
    let high := Nat.pow 2 bits
    if passes high then high + largest (fun n => passes (high + n)) bits
    else largest passes bits

/-- The first 64 bits of the fraction of a square root. -/
def squareRootBits (n : Nat) : UInt64 :=
  UInt64.ofNat (largest (fun r => r * r ≤ n * Nat.pow 2 128) 72)

/-- The first 64 bits of the fraction of a cube root. -/
def cubeRootBits (n : Nat) : UInt64 :=
  UInt64.ofNat (largest (fun r => r * r * r ≤ n * Nat.pow 2 192) 72)

/-- The round constants in 64 bits. -/
def roundWords : List UInt64 := primes.map cubeRootBits

/-- The starting words in 64 bits: eight for each of the two longer digests. -/
def startWords : List UInt64 := (primes.take 16).map squareRootBits

/-- The upper half of a word. -/
def upperHalf (w : UInt64) : UInt32 := (w >>> 32).toUInt32

/-- The lower half of a word. -/
def lowerHalf (w : UInt64) : UInt32 := w.toUInt32

end TlsTransport.Digest
