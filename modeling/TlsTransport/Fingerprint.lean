import TlsTransport.Digest.Sha1
import TlsTransport.Digest.Sha256
import TlsTransport.Digest.Sha512
import TlsTransport.Text.Character

/-! # Certificate fingerprints

A fingerprint is the hexadecimal digest of a certificate. Which digest it is can be told from its
length alone, because no two of the supported ones are equally long.

* `HashAlgorithm.length_digest`: each digest has its stated length.
* `normalizeFingerprint`: a fingerprint without separators and in lower case.
* `fingerprintMatches`: whether a certificate has a given fingerprint.
-/

namespace TlsTransport

/-- The digests a fingerprint may be computed with. -/
inductive HashAlgorithm where
  | sha1 | sha224 | sha256 | sha384 | sha512
  deriving DecidableEq, Repr

namespace HashAlgorithm

/-- Every supported digest, shortest first. -/
def all : List HashAlgorithm := [sha1, sha224, sha256, sha384, sha512]

/-- The name of a digest. -/
def name : HashAlgorithm → String
  | sha1 => "sha-1"
  | sha224 => "sha-224"
  | sha256 => "sha-256"
  | sha384 => "sha-384"
  | sha512 => "sha-512"

/-- The length of a digest in bytes. -/
def digestLength : HashAlgorithm → Nat
  | sha1 => 20
  | sha224 => 28
  | sha256 => 32
  | sha384 => 48
  | sha512 => 64

/-- The digest of a message. -/
def digest : HashAlgorithm → Bytes → Bytes
  | sha1, m => Digest.sha1 m
  | sha224, m => Digest.sha224 m
  | sha256, m => Digest.sha256 m
  | sha384, m => Digest.sha384 m
  | sha512, m => Digest.sha512 m

theorem length_digest (h : HashAlgorithm) (m : Bytes) : (h.digest m).length = h.digestLength := by
  cases h
  · exact Digest.length_sha1 m
  · exact Digest.length_sha224 m
  · exact Digest.length_sha256 m
  · exact Digest.length_sha384 m
  · exact Digest.length_sha512 m

theorem digestLength_inj {h k : HashAlgorithm} (e : h.digestLength = k.digestLength) : h = k := by
  revert e
  cases h <;> cases k <;> decide

end HashAlgorithm

/-- Whether some supported digest has a length. -/
def isDigestLength (n : Nat) : Bool := HashAlgorithm.all.any fun h => h.digestLength == n

/-- A fingerprint without blanks and colons, in lower case. Only hexadecimal text of the length of
a supported digest has one. -/
def normalizeFingerprint (text : String) : Option String :=
  let digits := text.toList.filter fun c => !isBlank c && c != ':'
  match Bytes.ofHexDigits? digits with
  | some bytes => if isDigestLength bytes.length then some bytes.toHex else none
  | none => none

/-- Whether a certificate has a fingerprint under any supported digest. -/
def fingerprintMatches (der : Bytes) (fingerprint : String) : Bool :=
  match Bytes.ofHex? fingerprint with
  | some want =>
    HashAlgorithm.all.any fun h => h.digestLength == want.length && h.digest der == want
  | none => false

end TlsTransport
