import TlsTransport.Digest.Basic

/-! # SHA-384 and SHA-512

The two digests on 64-bit words. They differ in their starting words and in how much of the last
state they keep.

* `Digest.length_sha512`, `Digest.length_sha384`: how long the digests are.
-/

namespace TlsTransport.Digest

/-- The eight words between two blocks. -/
structure Sha512State where
  a : UInt64
  b : UInt64
  c : UInt64
  d : UInt64
  e : UInt64
  f : UInt64
  g : UInt64
  h : UInt64

namespace Sha512State

/-- A state from its words; missing ones are zero. -/
def ofWords (words : List UInt64) : Sha512State :=
  let w (i : Nat) := words.getD i 0
  ⟨w 0, w 1, w 2, w 3, w 4, w 5, w 6, w 7⟩

/-- The words of a state, in order. -/
def words (s : Sha512State) : List UInt64 := [s.a, s.b, s.c, s.d, s.e, s.f, s.g, s.h]

/-- Turns a word to the right. -/
def turn (w n : UInt64) : UInt64 := (w >>> n) ||| (w <<< (64 - n))

/-- Extends the words of a block by `n` more. -/
def schedule (words : Array UInt64) : Nat → Array UInt64
  | 0 => words
  | n + 1 =>
    let t := words.size
    let w (i : Nat) := words.getD (t - i) 0
    let s0 := turn (w 15) 1 ^^^ turn (w 15) 8 ^^^ (w 15 >>> 7)
    let s1 := turn (w 2) 19 ^^^ turn (w 2) 61 ^^^ (w 2 >>> 6)
    schedule (words.push (w 16 + s0 + w 7 + s1)) n

/-- One round with its constant and its word. -/
def round (s : Sha512State) (k w : UInt64) : Sha512State :=
  let s1 := turn s.e 14 ^^^ turn s.e 18 ^^^ turn s.e 41
  let choice := (s.e &&& s.f) ^^^ ((~~~s.e) &&& s.g)
  let t1 := s.h + s1 + choice + k + w
  let s0 := turn s.a 28 ^^^ turn s.a 34 ^^^ turn s.a 39
  let majority := (s.a &&& s.b) ^^^ (s.a &&& s.c) ^^^ (s.b &&& s.c)
  ⟨t1 + (s0 + majority), s.a, s.b, s.c, s.d + t1, s.e, s.f, s.g⟩

/-- All rounds. -/
def rounds : List UInt64 → List UInt64 → Sha512State → Sha512State
  | k :: ks, w :: ws, s => rounds ks ws (s.round k w)
  | _, _, s => s

/-- One block. -/
def absorb (s : Sha512State) (block : Bytes) : Sha512State :=
  let first := (pieces 8 block).map fun p => UInt64.ofNat p.toNat
  let r := rounds roundWords (schedule first.toArray 64).toList s
  ⟨s.a + r.a, s.b + r.b, s.c + r.c, s.d + r.d, s.e + r.e, s.f + r.f, s.g + r.g, s.h + r.h⟩

/-- The state as bytes. -/
def bytes (s : Sha512State) : Bytes := s.words.flatMap fun w => Bytes.ofNat 8 w.toNat

theorem length_bytes (s : Sha512State) : s.bytes.length = 64 := by
  simp [bytes, words, Bytes.ofNat]

end Sha512State

/-- The starting state of SHA-512. -/
def sha512Start : Sha512State := .ofWords (startWords.take 8)

/-- The starting state of SHA-384. -/
def sha384Start : Sha512State := .ofWords (startWords.drop 8)

/-- The last state for a message. -/
def sha512From (start : Sha512State) (message : Bytes) : Sha512State :=
  (pieces 128 (pad 128 16 message)).foldl Sha512State.absorb start

/-- The SHA-512 digest of a message. -/
def sha512 (message : Bytes) : Bytes := (sha512From sha512Start message).bytes

/-- The SHA-384 digest of a message. -/
def sha384 (message : Bytes) : Bytes := (sha512From sha384Start message).bytes.take 48

theorem length_sha512 (message : Bytes) : (sha512 message).length = 64 :=
  Sha512State.length_bytes _

theorem length_sha384 (message : Bytes) : (sha384 message).length = 48 := by
  simp [sha384, Sha512State.length_bytes]

end TlsTransport.Digest
