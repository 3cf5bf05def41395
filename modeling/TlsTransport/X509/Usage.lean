import TlsTransport.Status
import TlsTransport.X509.Basic

/-! # What certificates may be used for

* `X509.isAuthority`: whether a certificate says that its holder issues certificates.
* `X509.allows`: whether its key may be used in one of some ways.
* `X509.serves`: whether it may be presented by a side of a connection.
-/

namespace TlsTransport

open Asn1

namespace X509

/-! ## Issuing -/

/-- What a certificate says of its holder as an issuer. -/
structure IssuerConstraints where
  isAuthority : Bool
  /-- How many authorities may stand between it and a leaf. -/
  pathLength : Option Nat
  deriving DecidableEq, Repr

/-- The value of the extension for issuers. -/
def issuerConstraints : Parser IssuerConstraints :=
  Parser.sequence do
    let isAuthority ← match ← Parser.optional booleanTag with
      | none => pure false
      | some item => truth item
    if ← Parser.atEnd then return ⟨isAuthority, none⟩
    return ⟨isAuthority, some (← Parser.natural)⟩

/-- What a certificate says of its holder as an issuer, if it says anything. -/
def issuerConstraints? (c : X509) : Option IssuerConstraints :=
  (c.extension? (extensionId 19)).bind fun e => Parser.parse? .relaxed e.value issuerConstraints

/-- Whether a certificate says that its holder issues certificates. -/
def isAuthority (c : X509) : Bool := c.issuerConstraints?.any (·.isAuthority)

/-! ## Using the key -/

/-- A way to use a key. -/
inductive KeyUse where
  | digitalSignature | keyEncipherment | keyAgreement | certificateSigning
  deriving DecidableEq, Repr

/-- The place of a way among the bits of the extension for it. -/
def KeyUse.bit : KeyUse → Nat
  | digitalSignature => 0
  | keyEncipherment => 2
  | keyAgreement => 4
  | certificateSigning => 5

/-- Whether a bit is set, counted from the most significant one of the first byte. -/
def hasBit (bits : Bytes) (n : Nat) : Bool :=
  (bits[n / 8]?).any fun b => b.toNat.testBit (7 - n % 8)

/-- The bits of the extension for uses of the key. -/
def useBits? (c : X509) : Option Bytes :=
  (c.extension? (extensionId 15)).bind fun e =>
    (Parser.parse? .relaxed e.value (Parser.expect bitStringTag)).map fun item =>
      item.content.drop 1

/-- Whether the key may be used in one of some ways; without the extension it may be in all. -/
def allows (c : X509) (uses : List KeyUse) : Bool :=
  match c.useBits? with
  | none => true
  | some bits => uses.any fun u => hasBit bits u.bit

/-! ## Presenting the certificate -/

/-- The identifier of the purpose to present a certificate as a side of a connection. -/
def purposeId : Side → Bytes
  | .server => [0x2b, 6, 1, 5, 5, 7, 3, 1]
  | .client => [0x2b, 6, 1, 5, 5, 7, 3, 2]

/-- The purposes to which a certificate is limited, if it is. -/
def purposes? (c : X509) : Option (List Bytes) :=
  (c.extension? (extensionId 37)).bind fun e =>
    Parser.parse? .relaxed e.value (Parser.sequence (Parser.many Parser.identifier))

/-- Whether a certificate may be presented by a side. -/
def serves (c : X509) (side : Side) : Bool :=
  match c.purposes? with
  | none => true
  | some ids => ids.contains (purposeId side)

/-! ## Telling issuers apart -/

/-- The identifier of the key of a certificate. -/
def keyId? (c : X509) : Option Bytes :=
  (c.extension? (extensionId 14)).bind fun e =>
    Parser.parse? .relaxed e.value Parser.octetString

/-- The identifier of the key of the issuer, as far as a certificate tells it. -/
def issuerKeyId? (c : X509) : Option Bytes :=
  (c.extension? (extensionId 35)).bind fun e =>
    (Parser.parse? .relaxed e.value do
      let whole ← Parser.expect sequenceTag
      Parser.within whole.content do
        let id ← Parser.optional (contextTag 0)
        let _ ← Parser.rest
        return id.map (·.content)).join

end X509
end TlsTransport
