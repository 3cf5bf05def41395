import TlsTransport.Digest.Basic

/-! # SHA-224 and SHA-256

The two digests on 32-bit words. They differ in their starting words and in how much of the last
state they keep.

* `Digest.length_sha256`, `Digest.length_sha224`: how long the digests are.
-/

namespace TlsTransport.Digest

/-- The eight words between two blocks. -/
structure Sha256State where
  a : UInt32
  b : UInt32
  c : UInt32
  d : UInt32
  e : UInt32
  f : UInt32
  g : UInt32
  h : UInt32

/-- The round constants: the upper halves of the first 64 round words. -/
def sha256Rounds : List UInt32 := (roundWords.take 64).map upperHalf

namespace Sha256State

/-- A state from its words; missing ones are zero. -/
def ofWords (words : List UInt32) : Sha256State :=
  let w (i : Nat) := words.getD i 0
  ⟨w 0, w 1, w 2, w 3, w 4, w 5, w 6, w 7⟩

/-- The words of a state, in order. -/
def words (s : Sha256State) : List UInt32 := [s.a, s.b, s.c, s.d, s.e, s.f, s.g, s.h]

/-- Turns a word to the right. -/
def turn (w n : UInt32) : UInt32 := (w >>> n) ||| (w <<< (32 - n))

/-- Extends the words of a block by `n` more. -/
def schedule (words : Array UInt32) : Nat → Array UInt32
  | 0 => words
  | n + 1 =>
    let t := words.size
    let w (i : Nat) := words.getD (t - i) 0
    let s0 := turn (w 15) 7 ^^^ turn (w 15) 18 ^^^ (w 15 >>> 3)
    let s1 := turn (w 2) 17 ^^^ turn (w 2) 19 ^^^ (w 2 >>> 10)
    schedule (words.push (w 16 + s0 + w 7 + s1)) n

/-- One round with its constant and its word. -/
def round (s : Sha256State) (k w : UInt32) : Sha256State :=
  let s1 := turn s.e 6 ^^^ turn s.e 11 ^^^ turn s.e 25
  let choice := (s.e &&& s.f) ^^^ ((~~~s.e) &&& s.g)
  let t1 := s.h + s1 + choice + k + w
  let s0 := turn s.a 2 ^^^ turn s.a 13 ^^^ turn s.a 22
  let majority := (s.a &&& s.b) ^^^ (s.a &&& s.c) ^^^ (s.b &&& s.c)
  ⟨t1 + (s0 + majority), s.a, s.b, s.c, s.d + t1, s.e, s.f, s.g⟩

/-- All rounds. -/
def rounds : List UInt32 → List UInt32 → Sha256State → Sha256State
  | k :: ks, w :: ws, s => rounds ks ws (s.round k w)
  | _, _, s => s

/-- One block. -/
def absorb (s : Sha256State) (block : Bytes) : Sha256State :=
  let first := (pieces 4 block).map fun p => UInt32.ofNat p.toNat
  let r := rounds sha256Rounds (schedule first.toArray 48).toList s
  ⟨s.a + r.a, s.b + r.b, s.c + r.c, s.d + r.d, s.e + r.e, s.f + r.f, s.g + r.g, s.h + r.h⟩

/-- The state as bytes. -/
def bytes (s : Sha256State) : Bytes := s.words.flatMap fun w => Bytes.ofNat 4 w.toNat

theorem length_bytes (s : Sha256State) : s.bytes.length = 32 := by
  simp [bytes, words, Bytes.ofNat]

end Sha256State

/-- The starting state of SHA-256. -/
def sha256Start : Sha256State := .ofWords ((startWords.take 8).map upperHalf)

/-- The starting state of SHA-224. -/
def sha224Start : Sha256State := .ofWords ((startWords.drop 8).map lowerHalf)

/-- The last state for a message. -/
def sha256From (start : Sha256State) (message : Bytes) : Sha256State :=
  (pieces 64 (pad 64 8 message)).foldl Sha256State.absorb start

/-- The SHA-256 digest of a message. -/
def sha256 (message : Bytes) : Bytes := (sha256From sha256Start message).bytes

/-- The SHA-224 digest of a message. -/
def sha224 (message : Bytes) : Bytes := (sha256From sha224Start message).bytes.take 28

theorem length_sha256 (message : Bytes) : (sha256 message).length = 32 :=
  Sha256State.length_bytes _

theorem length_sha224 (message : Bytes) : (sha224 message).length = 28 := by
  simp [sha224, Sha256State.length_bytes]

end TlsTransport.Digest
