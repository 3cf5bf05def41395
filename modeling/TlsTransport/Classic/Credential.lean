import TlsTransport.Classic.Pem
import TlsTransport.Credential
import TlsTransport.PrivateKey

/-! # Credentials of the classic provider

* `Classic.Identity.load`: a chain and a key that belong together.
-/

namespace TlsTransport.Classic

open Asn1

/-! ## Certificates -/

/-- A certificate at the front of a byte string. -/
def readCertificate (der : Bytes) : Except Reason X509 :=
  match Parser.run .relaxed der X509.parser with
  | .ok (c, _) => .ok c
  | .error fault => .error (.asn1 fault)

/-- The fields that may open a section of their own kind. -/
def opensEncryption (header : Bytes) : Bool :=
  (Bytes.ofString "Proc-Type:").isPrefixOf header

/-- The certificates among sections, up to the first fault. -/
def certificatesIn : List (PemSection × Bytes) → Except Reason (List X509)
  | [] => .ok []
  | (s, header) :: rest =>
    if Pem.isCertificate s then
      if header.isEmpty ∨ opensEncryption header then do
        let c ← readCertificate s.body
        return c :: (← certificatesIn rest)
      else .error .notProcType
    else certificatesIn rest

/-- The certificates in a text. -/
def readCertificates (text : Bytes) : Except Reason (List X509) := do
  let (sections, fault) := Pem.read text
  let found ← certificatesIn sections
  match fault with
  | some reason => .error reason
  | none => .ok found

/-! ## Keys -/

/-- The private key in a section, if it holds one. -/
def sectionKey? (s : PemSection) : Option PrivateKey :=
  if s.isLabelled "PRIVATE KEY" then PrivateKey.ofPkcs8? .relaxed s.body
  else if s.isLabelled "RSA PRIVATE KEY" then PrivateKey.ofRsa? .relaxed s.body
  else if s.isLabelled "EC PRIVATE KEY" then PrivateKey.ofEc? .relaxed s.body
  else none

/-- The first private key in a text. -/
def readKey (text : Bytes) : Except Reason PublicKeyInfo :=
  match (Pem.read text).1.findSome? fun s => (sectionKey? s.1).bind PrivateKey.publicInfo? with
  | some key => .ok key
  | none => .error .unsupported

/-! ## Strength -/

/-- The shortest RSA keys that are used. -/
def minRsaBits : Nat := 2048

/-- Whether a public key is strong enough. -/
def isStrong (k : PublicKeyInfo) : Bool :=
  match k.modulus? with
  | some n => Nat.pow 2 (minRsaBits - 1) ≤ n
  | none => true

/-- The signature algorithms with a digest that is too weak: MD5 and SHA-1. -/
def weakSignatures : List Bytes :=
  [[0x2a, 0x86, 0x48, 0x86, 0xf7, 0x0d, 0x01, 0x01, 0x04],
   [0x2a, 0x86, 0x48, 0x86, 0xf7, 0x0d, 0x01, 0x01, 0x05],
   [0x2a, 0x86, 0x48, 0xce, 0x3d, 0x04, 0x01]]

/-- Whether a certificate is its own issuer. -/
def isSelfIssued (c : X509) : Bool := c.issuer.sameAs c.subject

/-- Why a certificate is too weak to be presented. -/
def weakness? (leaf : Bool) (c : X509) : Option Reason :=
  if !isStrong c.key then some (if leaf then .leafKeyTooSmall else .caKeyTooSmall)
  else if !isSelfIssued c && weakSignatures.contains c.signatureAlgorithm.id then
    some .caDigestTooWeak
  else none

/-! ## Identities -/

/-- A chain of certificates, its leaf first, and the key of the leaf. -/
structure Identity where
  leaf : X509
  extra : List X509

/-- A key that is not that of a leaf: another key of its kind, or a key of another kind. -/
inductive Mismatch where
  | value | kind
  deriving DecidableEq

/-- How a key differs from that of a certificate, if it does. -/
def mismatch? (c : X509) (key : PublicKeyInfo) : Option Mismatch :=
  if c.key.algorithm.id ≠ key.algorithm.id then some .kind
  else if c.key.algorithm.curveId? ≠ key.algorithm.curveId? ∨ c.key.key ≠ key.key then some .value
  else none

/-- The identity in a credential. -/
def Identity.ofCredential (c : Credential) : Except SetupError Identity :=
  match readCertificates c.chain with
  | .error reason => .error (.certificate s!"Failed to load certificate: {reason.text}")
  | .ok [] => .error (.certificate "certificate not found")
  | .ok (leaf :: extra) =>
    match weakness? true leaf <|> extra.findSome? (weakness? false) with
    | some reason => .error reason.error
    | none =>
      match readKey c.key with
      | .error reason => .error (.certificate s!"Failed to load private key: {reason.text}")
      | .ok key =>
        match mismatch? leaf key with
        | some .value => .error Reason.keyValuesMismatch.error
        | some .kind =>
          .error <| .certificate
            s!"Private key does not match certificate: {Reason.noCertificateAssigned.text}"
        | none => .ok ⟨leaf, extra⟩

end TlsTransport.Classic
