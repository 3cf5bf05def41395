import TlsTransport.Fingerprint

/-! # Keyed digests and keys from passwords

* `Digest.hmac`: the keyed digest of a message.
* `Digest.stretch`: a key from a password, by many keyed digests.
* `Digest.containerKey`: the key that protects a key container against changes.
-/

namespace TlsTransport

/-- The length of the blocks of a digest. -/
def HashAlgorithm.blockLength : HashAlgorithm → Nat
  | sha1 | sha224 | sha256 => 64
  | sha384 | sha512 => 128

namespace Digest

/-- A key of one block: a longer one is digested, a shorter one filled up with zeros. -/
def blockKey (h : HashAlgorithm) (key : Bytes) : Bytes :=
  let key := if h.blockLength < key.length then h.digest key else key
  key ++ List.replicate (h.blockLength - key.length) 0

/-- The keyed digest of a message. -/
def hmac (h : HashAlgorithm) (key message : Bytes) : Bytes :=
  let key := blockKey h key
  h.digest (key.map (· ^^^ 0x5c) ++ h.digest (key.map (· ^^^ 0x36) ++ message))

/-- Applies a digest repeatedly. -/
def iterate (f : Bytes → Bytes) : Nat → Bytes → Bytes
  | 0, b => b
  | n + 1, b => iterate f n (f b)

/-! ## Stretching with SHA-256 -/

/-- The states behind the inner and the outer block of a key. -/
structure HmacState where
  inner : Sha256State
  outer : Sha256State

/-- The states of a key. -/
def HmacState.ofKey (key : Bytes) : HmacState :=
  let key := blockKey .sha256 key
  ⟨sha256Start.absorb (key.map (· ^^^ 0x36)), sha256Start.absorb (key.map (· ^^^ 0x5c))⟩

/-- What fills up a block that holds a digest behind one other block. -/
def digestTail : Bytes := (pad 64 8 (List.replicate 96 0)).drop 96

/-- The keyed digest of a digest. -/
def HmacState.apply (k : HmacState) (digest : Bytes) : Bytes :=
  (k.outer.absorb ((k.inner.absorb (digest ++ digestTail)).bytes ++ digestTail)).bytes

/-- Repeats a keyed digest and combines all results. -/
def HmacState.accumulate (k : HmacState) : Nat → Bytes → Bytes → Bytes
  | 0, _, total => total
  | n + 1, last, total =>
    let next := k.apply last
    k.accumulate n next (Bytes.xor total next)

/-- Part of a key from a password: salt and number of the part, number of rounds. -/
def stretchBlock (password salt : Bytes) (rounds part : Nat) : Bytes :=
  let first := hmac .sha256 password (salt ++ Bytes.ofNat 4 part)
  (HmacState.ofKey password).accumulate (rounds - 1) first first

/-- A key of a length from a password. -/
def stretch (password salt : Bytes) (rounds length : Nat) : Bytes :=
  ((List.range ((length + 31) / 32)).flatMap fun i =>
    stretchBlock password salt rounds (i + 1)).take length

/-! ## Key containers -/

/-- Repeats a byte string to whole blocks. -/
def fillBlocks (block : Nat) (bytes : Bytes) : Bytes :=
  let length := (bytes.length + block - 1) / block * block
  ((List.replicate (length / bytes.length + 1) bytes).flatten).take length

/-- The key that protects a key container against changes. The password is in two bytes to a
character. -/
def containerKey (h : HashAlgorithm) (password salt : Bytes) (rounds : Nat) : Bytes :=
  let v := h.blockLength
  let start := List.replicate v 3 ++ fillBlocks v salt ++ fillBlocks v password
  iterate h.digest rounds start

end Digest
end TlsTransport
