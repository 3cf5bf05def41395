import TlsTransport.Credential
import TlsTransport.PrivateKey
import TlsTransport.Strict.Certificate
import TlsTransport.Strict.Pem

/-! # Credentials of the strict provider

* `Strict.signingKey?`: the private keys with which the provider signs.
* `Strict.Identity.load`: a chain and a key that belong together.
* `Strict.credentialFormat`: how contexts read credentials.
-/

namespace TlsTransport.Strict

open Asn1

/-- The lengths of RSA keys that are used. -/
def rsaBits (n : Nat) : Bool := Nat.pow 2 2047 ≤ n && n < Nat.pow 2 4096

/-- Whether a private key is one with which the provider signs: its parts agree with each other,
and a key on a curve states its public point. -/
def isSound : PrivateKey → Bool
  | .rsa n e _ p q => rsaBits n && p * q == n && 65537 ≤ e && e % 2 == 1
  | .ec curve scalar point =>
    point.isSome && point == PrivateKey.point? curve scalar &&
      (Curve.ofId? curve).any fun c => c.width == scalar.length
  | .ed25519 _ => true

/-- The private key in a section. -/
def signingKey? (s : PemSection) : Option PrivateKey := do
  let key ←
    if s.isLabelled "RSA PRIVATE KEY" then PrivateKey.ofRsa? .canonical s.body
    else if s.isLabelled "EC PRIVATE KEY" then
      -- A key without a name of its own is tried on the curve that fits.
      PrivateKey.ofEc? .canonical s.body <|>
        Parser.parse? .canonical s.body (PrivateKey.ecParser (some Algorithm.p256Id))
    else PrivateKey.ofPkcs8? .canonical s.body
  if isSound key then some key else none

/-- A chain of certificates, its leaf first, and the key of the leaf. -/
structure Identity where
  chain : List Bytes
  key : PublicKeyInfo

/-- The certificates and the key in a credential. -/
def readCredential (c : Credential) : Except SetupError (List Bytes × PemSection) :=
  match Pem.certificates c.chain with
  | .error fault => .error (.certificate s!"Failed to load certificate: {fault.message}")
  | .ok [] => .error (.certificate "certificate not found")
  | .ok chain =>
    match Pem.privateKey? c.key with
    | .error fault => .error (.certificate s!"Failed to load private key: {fault.message}")
    | .ok none => .error (.certificate "private key not found")
    | .ok (some key) => .ok (chain, key)

/-- A chain and a key, if the key is that of the leaf. -/
def Identity.load (chain : List Bytes) (section_ : PemSection) : Except Error Identity :=
  match (signingKey? section_).bind PrivateKey.publicInfo?, chain with
  | none, _ | _, [] => .error .unusableKey
  | some key, leaf :: _ =>
    match readCertificate leaf with
    | .error fault => .error (.certificate fault)
    | .ok c => if c.key.encoding = key.encoding then .ok ⟨chain, key⟩ else .error .keyMismatch

/-- The identity in a credential. -/
def Identity.ofCredential (c : Credential) : Except SetupError Identity := do
  let (chain, key) ← readCredential c
  (Identity.load chain key).mapError Error.setup

/-- A fault in a text as a setup error. -/
def Pem.Fault.setup (fault : Pem.Fault) : SetupError := .io (.described .invalidData fault.message)

/-- How the strict provider reads credentials. -/
def credentialFormat : CredentialFormat where
  parseCertificates text := (Pem.certificates text).mapError Pem.Fault.setup
  check c := (Identity.ofCredential c).map fun _ => ()
  importContainer _ := .error (.unsupported .strict "PKCS#12 import")

end TlsTransport.Strict
