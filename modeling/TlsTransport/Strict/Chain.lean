import TlsTransport.Strict.Certificate
import TlsTransport.X509.Signature
import TlsTransport.X509.Usage

/-! # Chains of trust as the strict provider follows them

From a leaf upwards, every issuer is looked for among the anchors first and then among the
certificates that the peer sent along. Names link the certificates; signatures are checked once an
anchor is reached.

* `Strict.verifyChain`: whether a chain leads to an anchor.
* `Strict.verifyName`: whether a leaf is valid for the name of a server.
-/

namespace TlsTransport.Strict

/-! ## Single certificates -/

/-- How much a fault tells of what is wrong; of two faults the more telling one is reported. -/
def CertificateFault.weight : CertificateFault → Nat
  | expired | notYetValid => 290
  | otherNames .. => 280
  | badSignature => 260
  | signatureAlgorithmMismatch => 250
  | purposeNotIncluded => 240
  | pathTooLong => 220
  | caUsedAsEndEntity | endEntityUsedAsCa => 210
  | unsupportedSignatureAlgorithm => 140
  | unsupportedVersion | unsupportedCriticalExtension => 130
  | extensionValueInvalid => 30
  | badEncoding => 10
  | unknownIssuer => 0

/-- The more telling of two faults; of equals the first. -/
def CertificateFault.max (a b : CertificateFault) : CertificateFault :=
  if a.weight < b.weight then b else a

/-- What a certificate is in a chain: its leaf, or an issuer with so many others below it. -/
inductive Role where
  | leaf
  | issuer (below : Nat)
  deriving DecidableEq, Repr

/-- The role of the issuer of a certificate. -/
def Role.next : Role → Role
  | leaf => issuer 0
  | issuer below => issuer (below + 1)

/-- What speaks against a certificate, whoever issued it. -/
def ownFault? (now : Moment) (presenter : Side) (role : Role) (c : X509) :
    Option CertificateFault :=
  match moment? c.notBefore, moment? c.notAfter with
  | some start, some stop =>
    if now < start then some .notYetValid
    else if stop < now then some .expired
    else
      let constraints := c.issuerConstraints?
      match role, c.isAuthority, constraints.bind (·.pathLength) with
      | .leaf, true, _ => some .caUsedAsEndEntity
      | .issuer _, false, _ => some .endEntityUsedAsCa
      | .issuer below, true, some most =>
        if most < below then some .pathTooLong
        else if c.serves presenter then none else some .purposeNotIncluded
      | _, _, _ => if c.serves presenter then none else some .purposeNotIncluded
  | _, _ => some .badEncoding

/-! ## Chains -/

/-- Whether two names are written alike. -/
def sameName (a b : Name) : Bool := a.encoding == b.encoding

/-- Checks the signatures of a path, which starts at the certificate that the given key issued. -/
def checkSignatures (issuer : PublicKeyInfo) : List X509 → Except CertificateFault Unit
  | [] => .ok ()
  | c :: rest =>
    match c.checkSignature issuer with
    | .valid => checkSignatures c.key rest
    | .invalid => .error .badSignature
    | .unsupported => .error .unsupportedSignatureAlgorithm

/-- The first attempt that succeeds, or the most telling of the faults. -/
def firstOf {α : Type} (fault : CertificateFault) (attempt : α → Except CertificateFault Unit) :
    List α → Except CertificateFault Unit
  | [] => .error fault
  | a :: rest =>
    match attempt a with
    | .ok () => .ok ()
    | .error e => firstOf (fault.max e) attempt rest

/-- What chains are verified with. -/
structure ChainRules where
  anchors : List X509
  now : Moment
  /-- Who presents the chain. -/
  presenter : Side

/-- The longest chain above a leaf. -/
def maxDepth : Nat := 6

/-- Verifies that an anchor issued the head of a path, which comes down to the leaf. -/
def endAtAnchor (rules : ChainRules) (head : X509) (path : List X509) :
    Except CertificateFault Unit :=
  firstOf .unknownIssuer (fun (a : X509) =>
    if sameName head.issuer a.subject then checkSignatures a.key (head :: path)
    else .error .unknownIssuer) rules.anchors

/-- Continues a path from its head to an anchor, through at most so many of the certificates that
were sent along. -/
def climb (rules : ChainRules) (sent : List Bytes) (role : Role) (head : X509) (path : List X509) :
    Nat → Except CertificateFault Unit
  | 0 =>
    match ownFault? rules.now rules.presenter role head with
    | some fault => .error fault
    | none => endAtAnchor rules head path
  | depth + 1 =>
    match ownFault? rules.now rules.presenter role head with
    | some fault => .error fault
    | none =>
      match endAtAnchor rules head path with
      | .ok () => .ok ()
      | .error fault =>
        firstOf fault (fun der => do
          let issuer ← readCertificate der
          let seen := (head :: path).any fun c =>
            c.key.encoding == issuer.key.encoding && sameName c.subject issuer.subject
          if !sameName issuer.subject head.issuer || seen then .error .unknownIssuer
          else climb rules sent role.next issuer (head :: path) depth) sent

/-- Verifies that a chain leads to an anchor. -/
def verifyChain (rules : ChainRules) (chain : List Bytes) : Except CertificateFault X509 :=
  match chain with
  | [] => .error .badEncoding
  | leaf :: sent => do
    let c ← readCertificate leaf
    climb rules sent .leaf c [] maxDepth
    return c

/-! ## Names -/

/-- Whether an alternative name is that of a server. -/
def isNameOf (server : ServerName) : X509.AltName → Bool
  | .dns text =>
    match server with
    | .dns name => ServerName.isMatchedBy name (text.map fun b => Char.ofNat b.toNat)
    | .address _ => false
  | .address bytes =>
    match server with
    | .dns _ => false
    | .address ip => octets ip == bytes
  | _ => false

/-- Verifies that a certificate is valid for the name of a server. -/
def verifyName (server : ServerName) (c : X509) : Except CertificateFault Unit :=
  let names : Except Asn1.Fault (List X509.AltName) := match c.extension? (X509.extensionId 17) with
    | none => .ok []
    | some e => X509.readAltNames .canonical e.value
  match names with
  | .error _ => .error .badEncoding
  | .ok names =>
    if names.any (isNameOf server) then .ok ()
    else .error (.otherNames server (names.map renderAltName))

end TlsTransport.Strict
