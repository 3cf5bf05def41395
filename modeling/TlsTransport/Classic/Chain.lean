import TlsTransport.Classic.Credential
import TlsTransport.X509.Identity
import TlsTransport.X509.Signature
import TlsTransport.X509.Usage

/-! # Chains of the classic provider

A path leads from a leaf up to a root that is trusted. For each step an issuer that is trusted goes
before one that was only sent along. The whole path is found first and checked then.

* `Classic.verifyChain`: verifies a chain.
* `Classic.pathInStore`: the path through trusted certificates alone, which is also what a side
  sends when it was given a leaf only.
-/

namespace TlsTransport.Classic

/-! ## Faults -/

/-- What is wrong with a chain. -/
inductive ChainFault where
  /-- No issuer is known, of the leaf or of what was sent along. -/
  | issuerUnknown
  /-- No issuer is known of a certificate that is trusted. -/
  | trustedIssuerUnknown
  /-- The leaf is its own issuer. -/
  | selfSigned
  /-- The path ends in a root that is not trusted. -/
  | rootNotTrusted
  | tooLong
  | unhandledExtension
  | notAuthority
  | unsuitablePurpose
  | pathTooLong
  | leafKeyTooWeak
  | issuerKeyTooWeak
  | digestTooWeak
  | badSignature
  | notYetValid
  | expired
  deriving DecidableEq, Repr

/-- A fault as it stands in texts. -/
def ChainFault.text : ChainFault → String
  | issuerUnknown => "unable to get local issuer certificate"
  | trustedIssuerUnknown => "unable to get issuer certificate"
  | selfSigned => "self-signed certificate"
  | rootNotTrusted => "self-signed certificate in certificate chain"
  | tooLong => "certificate chain too long"
  | unhandledExtension => "unhandled critical extension"
  | notAuthority => "invalid CA certificate"
  | unsuitablePurpose => "unsuitable certificate purpose"
  | pathTooLong => "path length constraint exceeded"
  | leafKeyTooWeak => "EE certificate key too weak"
  | issuerKeyTooWeak => "CA certificate key too weak"
  | digestTooWeak => "CA signature digest algorithm too weak"
  | badSignature => "certificate signature failure"
  | notYetValid => "certificate is not yet valid"
  | expired => "certificate has expired"

/-- The alert that tells the peer of a fault. -/
def ChainFault.alertCode : ChainFault → UInt8
  | notYetValid | leafKeyTooWeak | issuerKeyTooWeak | digestTooWeak => 42
  | unsuitablePurpose => 43
  | expired => 45
  | unhandledExtension => 46
  | issuerUnknown | trustedIssuerUnknown | selfSigned | rootNotTrusted | tooLong | notAuthority
  | pathTooLong => 48
  | badSignature => 51

/-! ## Issuers -/

/-- Whether a signature is of the kind that a key makes. -/
def isSignedLike (c : X509) (key : PublicKeyInfo) : Bool :=
  match X509.curveSchemes.any (·.1 == c.signatureAlgorithm.id),
    X509.rsaSchemes.any (·.1 == c.signatureAlgorithm.id) with
  | true, _ => key.algorithm.id == Algorithm.ecId
  | _, true => key.algorithm.id == Algorithm.rsaId
  | _, _ => true

/-- Whether one certificate may have been issued by the holder of another, by what both say. -/
def isIssuedBy (c issuer : X509) : Bool :=
  c.issuer.sameAs issuer.subject &&
    (match c.issuerKeyId?, issuer.keyId? with
      | some wanted, some id => wanted == id
      | _, _ => true) &&
    isSignedLike c issuer.key && issuer.allows [.certificateSigning]

/-- Whether a certificate is a root: issued by its own holder with its own key. -/
def isSelfSigned (c : X509) : Bool :=
  isSelfIssued c && isSignedLike c c.key &&
    match c.issuerKeyId?, c.keyId? with
    | some wanted, some id => wanted == id
    | _, _ => true

/-- Why it is not time for a certificate. A time that cannot be read has not come, or is over. -/
def timeFault? (now : Moment) (c : X509) : Option ChainFault :=
  match moment? c.notBefore, moment? c.notAfter with
  | some start, some stop =>
    if now < start then some .notYetValid else if stop ≤ now then some .expired else none
  | none, _ => some .notYetValid
  | _, none => some .expired

/-- Of two certificates the one that ends later. -/
def laterOf (best : Option X509) (c : X509) : Option X509 :=
  match best with
  | none => some c
  | some b =>
    if (moment? b.notAfter).getD 0 < (moment? c.notAfter).getD 0 then some c else some b

/-- The issuer of a certificate among others: one for which it is time, or else the one that ended
last. -/
def issuerIn? (now : Moment) (others : List X509) (c : X509) : Option X509 :=
  let fitting := others.filter (isIssuedBy c)
  match fitting.find? fun i => (timeFault? now i).isNone with
  | some i => some i
  | none => fitting.foldl laterOf none

/-! ## Paths -/

/-- The longest path. -/
def maxPath : Nat := 101

/-- The path above a certificate through trusted ones, and whether it ends in a root. -/
def pathInStore (now : Moment) (store : List X509) (c : X509) : Nat → List X509 × Bool
  | 0 => ([], false)
  | room + 1 =>
    match issuerIn? now store c with
    | none => ([], false)
    | some i =>
      if isSelfSigned i then ([i], true)
      else
        let (above, rooted) := pathInStore now store i room
        (i :: above, rooted)

/-- The path from a certificate to a trusted root, its own certificate first. -/
def findPath (now : Moment) (store sent : List X509) (first : Bool) (c : X509) :
    Nat → Except ChainFault (List X509)
  | 0 => .error .tooLong
  | room + 1 =>
    if isSelfSigned c then
      if store.any (·.encoding == c.encoding) then .ok [c]
      else .error (if first then .selfSigned else .rootNotTrusted)
    else
      match pathInStore now store c room with
      | ([], _) =>
        match issuerIn? now sent c with
        | none => .error .issuerUnknown
        | some i =>
          (findPath now store (sent.filter (·.encoding != i.encoding)) false i room).map (c :: ·)
      | (above, true) => .ok (c :: above)
      | (_, false) => .error .trustedIssuerUnknown

/-! ## Checks -/

/-- The standard extensions that are understood. -/
def knownExtensions : List Bytes := [15, 17, 19, 30, 31, 32, 33, 36, 37, 54].map X509.extensionId

/-- Whether a certificate has an extension that has to be understood and is not. -/
def hasUnhandled (c : X509) : Bool :=
  c.extensions.any fun e => e.critical && !knownExtensions.contains e.id

/-- Whether the holder of a certificate issues others. Roots may say so in older ways. -/
def issues (root : Bool) (c : X509) : Bool :=
  c.allows [.certificateSigning] &&
    match c.issuerConstraints? with
    | some k => k.isAuthority
    | none => root && (c.version = 0 || c.useBits?.isSome)

/-- The uses of a key of which a leaf needs one. -/
def leafUses : Side → List X509.KeyUse
  | .server => [.digitalSignature, .keyEncipherment, .keyAgreement]
  | .client => [.digitalSignature, .keyAgreement]

/-- Checks the authorities of a path from below, with so many that are not their own issuers before
them. -/
def authoritiesFault? (presenter : Side) (below : Nat) : List X509 → Option ChainFault
  | [] => none
  | c :: above =>
    if hasUnhandled c then some .unhandledExtension
    else if !issues above.isEmpty c then some .notAuthority
    else if !c.serves presenter then some .unsuitablePurpose
    else if (c.issuerConstraints?.bind (·.pathLength)).any (· < below) then some .pathTooLong
    else authoritiesFault? presenter (if isSelfIssued c then below else below + 1) above

/-- Checks what the certificates of a path say they are for. -/
def usageFault? (presenter : Side) (leaf : X509) (above : List X509) : Option ChainFault :=
  if hasUnhandled leaf then some .unhandledExtension
  else if !(leaf.serves presenter && leaf.allows (leafUses presenter)) then
    some .unsuitablePurpose
  else authoritiesFault? presenter 0 above

/-- Checks the keys of the authorities, and the digests below the root. -/
def strengthFault? : List X509 → Option ChainFault
  | [] | [_] => none
  | c :: i :: above =>
    if weakSignatures.contains c.signatureAlgorithm.id then some .digestTooWeak
    else if !isStrong i.key then some .issuerKeyTooWeak
    else strengthFault? (i :: above)

/-- Checks signatures and times from the root down. -/
def signatureFault? (now : Moment) : List X509 → Option ChainFault
  | [] => none
  | [root] => timeFault? now root
  | c :: i :: above =>
    signatureFault? now (i :: above) <|>
      if c.checkSignature i.key = .valid then timeFault? now c else some .badSignature

/-- Verifies the chain of a peer: its leaf and what it sent along. -/
def verifyChain (now : Moment) (store : List X509) (presenter : Side) (leaf : X509)
    (sent : List X509) : Except ChainFault Unit := do
  if !isStrong leaf.key then .error .leafKeyTooWeak
  let path ← findPath now store sent true leaf maxPath
  match usageFault? presenter leaf path.tail <|> strengthFault? path <|>
    signatureFault? now path with
  | some fault => .error fault
  | none => .ok ()

end TlsTransport.Classic
