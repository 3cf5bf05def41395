import TlsTransport.Bytes

/-! # A keyed 64-bit digest for payloads

SipHash with one round per word and three at the end, with both keys zero. It tells apart payloads
that a caller offers twice; it guards nothing against an attacker who knows the keys.
-/

namespace TlsTransport.Digest

/-- The four words between two rounds. -/
structure SipState where
  v0 : UInt64
  v1 : UInt64
  v2 : UInt64
  v3 : UInt64

namespace SipState

/-- The words before any input, for zero keys. -/
def start : SipState :=
  ⟨0x736f6d6570736575, 0x646f72616e646f6d, 0x6c7967656e657261, 0x7465646279746573⟩

/-- Turns a word to the left. -/
def turn (w n : UInt64) : UInt64 := (w <<< n) ||| (w >>> (64 - n))

/-- One round. -/
def round (s : SipState) : SipState :=
  let v0 := s.v0 + s.v1
  let v1 := turn s.v1 13 ^^^ v0
  let v0 := turn v0 32
  let v2 := s.v2 + s.v3
  let v3 := turn s.v3 16 ^^^ v2
  let v0 := v0 + v3
  let v3 := turn v3 21 ^^^ v0
  let v2 := v2 + v1
  let v1 := turn v1 17 ^^^ v2
  let v2 := turn v2 32
  ⟨v0, v1, v2, v3⟩

/-- One word of input. -/
def absorb (s : SipState) (w : UInt64) : SipState :=
  let s := round { s with v3 := s.v3 ^^^ w }
  { s with v0 := s.v0 ^^^ w }

end SipState

/-- The number written by bytes, least significant first. -/
def littleEndian (bytes : Bytes) : UInt64 :=
  bytes.foldr (fun b n => 256 * n + b.toUInt64) 0

/-- Absorbs whole words, then the bytes left over with the length in the top byte. -/
def sipWords (length : Nat) (s : SipState) : Bytes → SipState
  | a :: b :: c :: d :: e :: f :: g :: h :: rest =>
    sipWords length (s.absorb (littleEndian [a, b, c, d, e, f, g, h])) rest
  | rest => s.absorb (littleEndian rest ||| (UInt64.ofNat length <<< 56))

/-- The digest of a payload. -/
def sip (payload : Bytes) : UInt64 :=
  let s := sipWords payload.length SipState.start payload
  let s := { s with v2 := s.v2 ^^^ 0xff }
  let s := s.round.round.round
  s.v0 ^^^ s.v1 ^^^ s.v2 ^^^ s.v3

end TlsTransport.Digest
