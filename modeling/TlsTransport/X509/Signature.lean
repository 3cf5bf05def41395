import TlsTransport.Fingerprint
import TlsTransport.PrivateKey

/-! # Signatures of certificates

Two kinds of signatures are understood: those on the curves of `Curve` and those of RSA keys.
-/

namespace TlsTransport

open Asn1

namespace X509

/-- What becomes of a signature that is checked with a public key. -/
inductive SignatureVerdict where
  | valid
  | invalid
  /-- The algorithm is not understood or is not one of that key. -/
  | unsupported
  deriving DecidableEq, Repr

/-- The identifiers of signatures on curves with their digests. -/
def curveSchemes : List (Bytes × HashAlgorithm) :=
  [(2, .sha256), (3, .sha384), (4, .sha512)].map fun (n, hash) =>
    ([0x2a, 0x86, 0x48, 0xce, 0x3d, 0x04, 0x03, n], hash)

/-- The identifiers of signatures of RSA keys, their digests and the identifiers of these. -/
def rsaSchemes : List (Bytes × HashAlgorithm × Bytes) :=
  [(11, .sha256, 1), (12, .sha384, 2), (13, .sha512, 3)].map fun (n, hash, m) =>
    ([0x2a, 0x86, 0x48, 0x86, 0xf7, 0x0d, 0x01, 0x01, n], hash,
      [0x60, 0x86, 0x48, 0x01, 0x65, 0x03, 0x04, 0x02, m])

/-- The two numbers of a signature on a curve. -/
def curveSignature : Parser (Nat × Nat) :=
  Parser.sequence do return (← Parser.natural, ← Parser.natural)

/-- Checks a signature on a curve. -/
def checkOnCurve (key : PublicKeyInfo) (digest signature : Bytes) : SignatureVerdict :=
  match key.algorithm.curveId?.bind Curve.ofId? with
  | none => .unsupported
  | some curve =>
    match curve.decode? key.key, Parser.parse? .canonical signature curveSignature with
    | some point, some (r, s) => if curve.verify point digest r s then .valid else .invalid
    | _, _ => .invalid

/-- The number that an RSA signature of a digest has to be a root of. -/
def paddedDigest (width : Nat) (digestId digest : Bytes) : Bytes :=
  let info := writeSequence
    [writeSequence [write identifierTag digestId, write nullTag []], write octetStringTag digest]
  0 :: 1 :: List.replicate (width - info.length - 3) 0xff ++ 0 :: info

/-- Checks a signature of an RSA key. -/
def checkRsa (key : PublicKeyInfo) (digestId digest signature : Bytes) : SignatureVerdict :=
  let numbers := Parser.parse? .relaxed key.key <| Parser.sequence do
    return (← Parser.natural, ← Parser.natural)
  match numbers with
  | none => .unsupported
  | some (n, e) =>
    let width := n.log2 / 8 + 1
    let root := Bytes.toNat signature
    if signature.length = width ∧ root < n ∧
        Bytes.ofNat width (powMod n root e) = paddedDigest width digestId digest then .valid
    else .invalid

/-- Checks the signature of a certificate with the public key of an issuer. -/
def checkSignature (c : X509) (issuer : PublicKeyInfo) : SignatureVerdict :=
  let id := c.signatureAlgorithm.id
  match curveSchemes.find? (·.1 == id), rsaSchemes.find? (·.1 == id) with
  | some (_, hash), _ =>
    if issuer.algorithm.id = Algorithm.ecId then
      checkOnCurve issuer (hash.digest c.signed) c.signature
    else .unsupported
  | none, some (_, hash, digestId) =>
    if issuer.algorithm.id = Algorithm.rsaId then
      checkRsa issuer digestId (hash.digest c.signed) c.signature
    else .unsupported
  | none, none => .unsupported

end X509
end TlsTransport
