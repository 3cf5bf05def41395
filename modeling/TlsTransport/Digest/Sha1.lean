import TlsTransport.Digest.Basic

/-! # SHA-1

* `Digest.length_sha1`: the digest has twenty bytes.
-/

namespace TlsTransport.Digest

/-- The five words between two blocks. -/
structure Sha1State where
  a : UInt32
  b : UInt32
  c : UInt32
  d : UInt32
  e : UInt32

namespace Sha1State

/-- The words before the first block. -/
def start : Sha1State := ⟨0x67452301, 0xEFCDAB89, 0x98BADCFE, 0x10325476, 0xC3D2E1F0⟩

/-- Turns a word to the left. -/
def turn (w n : UInt32) : UInt32 := (w <<< n) ||| (w >>> (32 - n))

/-- The words of a block, newest first, extended to `80` of them. -/
def schedule (words : Array UInt32) : Nat → Array UInt32
  | 0 => words
  | n + 1 =>
    let t := words.size
    let w (i : Nat) := words.getD (t - i) 0
    schedule (words.push (turn (w 3 ^^^ w 8 ^^^ w 14 ^^^ w 16) 1)) n

/-- One round. -/
def round (s : Sha1State) (t : Nat) (w : UInt32) : Sha1State :=
  let (f, k) : UInt32 × UInt32 :=
    if t < 20 then ((s.b &&& s.c) ||| ((~~~s.b) &&& s.d), 0x5A827999)
    else if t < 40 then (s.b ^^^ s.c ^^^ s.d, 0x6ED9EBA1)
    else if t < 60 then ((s.b &&& s.c) ||| (s.b &&& s.d) ||| (s.c &&& s.d), 0x8F1BBCDC)
    else (s.b ^^^ s.c ^^^ s.d, 0xCA62C1D6)
  ⟨turn s.a 5 + f + s.e + k + w, s.a, turn s.b 30, s.c, s.d⟩

/-- One block. -/
def absorb (s : Sha1State) (block : Bytes) : Sha1State :=
  let first := (pieces 4 block).map fun p => UInt32.ofNat p.toNat
  let words := schedule first.toArray 64
  let r := words.toList.zipIdx.foldl (fun s (w, t) => s.round t w) s
  ⟨s.a + r.a, s.b + r.b, s.c + r.c, s.d + r.d, s.e + r.e⟩

end Sha1State

/-- The SHA-1 digest of a message. -/
def sha1 (message : Bytes) : Bytes :=
  let s := (pieces 64 (pad 64 8 message)).foldl Sha1State.absorb Sha1State.start
  [s.a, s.b, s.c, s.d, s.e].flatMap fun w => Bytes.ofNat 4 w.toNat

theorem length_sha1 (message : Bytes) : (sha1 message).length = 20 := by
  simp [sha1, Bytes.ofNat]

end TlsTransport.Digest
