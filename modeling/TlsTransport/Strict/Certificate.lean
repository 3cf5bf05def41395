import TlsTransport.Strict.Error
import TlsTransport.X509.Basic

/-! # Certificates as the strict provider reads them

The provider admits only the newest version of certificates and only the canonical encoding, and it
knows what each critical extension is for.
-/

namespace TlsTransport.Strict

open Asn1

/-- The extensions that are understood: use of the key, alternative names, constraints of the
certificate, constraints of names, where to learn of revocation, and extended use. -/
def knownExtensions : List Bytes := [15, 17, 19, 30, 31, 37].map X509.extensionId

/-- What is wrong with a list of extensions. -/
def extensionFault? (seen : List Bytes) : List Extension → Option CertificateFault
  | [] => none
  | e :: rest =>
    if knownExtensions.contains e.id then
      if seen.contains e.id then some .extensionValueInvalid
      else extensionFault? (e.id :: seen) rest
    else if e.critical then some .unsupportedCriticalExtension
    else extensionFault? seen rest

/-- What is wrong with a certificate that is well encoded. -/
def certificateFault? (c : X509) : Option CertificateFault :=
  if c.version ≠ 2 then some .unsupportedVersion
  else if c.innerAlgorithm ≠ c.signatureAlgorithm then some .signatureAlgorithmMismatch
  else extensionFault? [] c.extensions

/-- Reads a certificate. -/
def readCertificate (der : Bytes) : Except CertificateFault X509 :=
  match Parser.parse? .canonical der X509.parser with
  | none => .error .badEncoding
  | some c =>
    match certificateFault? c with
    | some fault => .error fault
    | none => .ok c

/-- Reads a certificate that is trusted as it stands. It may also be of the first version. -/
def readAnchor (der : Bytes) : Except CertificateFault X509 :=
  match readCertificate der with
  | .error .unsupportedVersion =>
    match Parser.parse? .canonical der X509.parser with
    | some c => if c.version = 0 then .ok c else .error .unsupportedVersion
    | none => .error .badEncoding
  | answer => answer

/-! ## Names -/

/-- An address of sixteen octets in groups. Zero groups behind the first group are left out wherever
they stand, and two colons take the place of those that another group follows. -/
def renderGroups (first skipping : Bool) : Bytes → String
  | a :: b :: rest =>
    if first then group a b ++ renderGroups false false rest
    else if a = 0 ∧ b = 0 then renderGroups false true rest
    else if skipping then "::" ++ group a b ++ renderGroups false false rest
    else ":" ++ group a b ++ renderGroups false false rest
  | _ => ""
where
  /-- One group without leading zeros. -/
  group (a b : UInt8) : String := String.ofList (Nat.toDigits 16 (256 * a.toNat + b.toNat))

/-- An alternative name as it stands in texts. -/
def renderAltName : X509.AltName → String
  | .dns text => s!"DnsName(\"{text.toText}\")"
  | .address bytes =>
    let shown :=
      if bytes.length = 4 then ".".intercalate (bytes.map fun b => toString b.toNat)
      else if bytes.length = 16 then renderGroups true false bytes
      else
        let octets := ", ".intercalate (bytes.map fun b => Bytes.toHex [b])
        s!"[invalid: {octets}]"
    s!"IpAddress({shown})"
  | .uri text => s!"UniformResourceIdentifier(\"{text.toText}\")"
  | .directory => "DirectoryName"
  | .other tag => s!"Unsupported({tag.toNat % 32})"

end TlsTransport.Strict
