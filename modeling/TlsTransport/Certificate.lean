import TlsTransport.Hostname

/-! # What is known of a certificate

`CertificateInfo` is the summary of a certificate that is shown to people, `PeerIdentity` the names
for which it is valid.
-/

namespace TlsTransport

/-- What stands for a value that is not known. -/
def undefinedText : String := "<undef>"

/-- The summary of a certificate. -/
structure CertificateInfo where
  /-- Common name of the subject. -/
  subject : String
  /-- Common name of the issuer. -/
  issuer : String
  /-- Alternative names, each with its kind. -/
  altNames : List String
  /-- The encoded certificate. -/
  der : Bytes
  deriving DecidableEq, Repr

/-- The summary of a certificate of which only the encoding is known. -/
def CertificateInfo.unread (der : Bytes) : CertificateInfo :=
  ⟨undefinedText, undefinedText, [], der⟩

/-- The names a certificate is valid for. -/
structure PeerIdentity where
  dnsNames : List String
  addresses : List IpAddress
  commonName : Option String
  deriving DecidableEq, Repr

/-- Whether an identity covers a host. -/
def PeerIdentity.covers (p : PeerIdentity) (host : String) : Bool :=
  verifyHostname host p.dnsNames p.addresses p.commonName

/-- An identity as a certificate summary shows it: DNS names first, then addresses. -/
def PeerIdentity.altNames (p : PeerIdentity) : List String :=
  p.dnsNames.map (s!"DNS:{·}") ++ p.addresses.map fun a => s!"IP:{a.render}"

end TlsTransport
