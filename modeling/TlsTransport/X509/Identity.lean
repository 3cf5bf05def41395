import TlsTransport.Certificate
import TlsTransport.X509.Basic

/-! # What certificates say of their holders

* `X509.identity`: the names for which a certificate is valid.
* `CertificateInfo.ofDer`: the summary of an encoded certificate.
-/

namespace TlsTransport

namespace X509

/-- The names for which a certificate is valid: the DNS names that are text, the addresses and the
last common name. -/
def identity (c : X509) : PeerIdentity :=
  let names := c.altNames?.getD []
  { dnsNames := names.filterMap fun
      | .dns text => text.toText?
      | _ => none
    addresses := names.filterMap fun
      | .address octets => IpAddress.ofOctets? octets
      | _ => none
    commonName := c.subject.commonName? }

/-- The summary of a certificate. -/
def info (c : X509) : CertificateInfo where
  subject := c.subject.commonName?.getD undefinedText
  issuer := c.issuer.commonName?.getD undefinedText
  altNames := c.identity.altNames
  der := c.encoding

end X509

/-- The summary of an encoded certificate. What follows the certificate does not belong to it. -/
def CertificateInfo.ofDer (der : Bytes) : CertificateInfo :=
  match Asn1.Parser.run .relaxed der X509.parser with
  | .ok (c, _) => c.info
  | .error _ => .unread der

end TlsTransport
