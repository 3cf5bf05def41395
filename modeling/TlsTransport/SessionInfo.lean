import TlsTransport.Certificate
import TlsTransport.Fingerprint
import TlsTransport.Resolve
import TlsTransport.Version

/-! # Parameters of a session

A snapshot of what a session agreed on, and the lookup of its values by name.

* `SessionInfo.get?`: the value of a name such as `tls.version` or `tls.cert1.issuer`.
-/

namespace TlsTransport

/-- What a session agreed on. -/
structure SessionInfo where
  version : Option TlsVersion
  cipher : Option String
  /-- The name sent to the server. -/
  serverName : Option String
  /-- The chain of the peer, its own certificate first. -/
  certificates : List CertificateInfo
  /-- Renegotiations the peer asked for. -/
  renegotiations : Nat
  failed : Bool
  deriving DecidableEq, Repr

namespace SessionInfo

/-- The parameters of a session that never was. -/
def none : SessionInfo := ⟨.none, .none, .none, [], 0, true⟩

/-- A certificate of the chain, counted from the peer's own. -/
def certificate? (info : SessionInfo) (index : Nat) : Option CertificateInfo :=
  info.certificates[index]?

/-- The value of a certificate's field. -/
def fieldOf? (c : CertificateInfo) (field : List Char) : Option String :=
  let field := String.ofList field
  if field = "subject" then some c.subject
  else if field = "issuer" then some c.issuer
  else if field = "subject_alt_names" then
    some (if c.altNames.isEmpty then undefinedText else ", ".intercalate c.altNames)
  else if field = "fingerprint" then some (HashAlgorithm.sha256.digest c.der).toHex
  else .none

/-- The largest index that can be written. -/
def indexBound : Nat := Nat.pow 2 64 - 1

/-- Reads what follows `tls.cert`: a dot and a field of the peer's own certificate, or an index, a
dot and a field between blanks. -/
def certificateField? (rest : List Char) : Option (Nat × List Char) :=
  match rest with
  | '.' :: field => some (0, field)
  | rest => do
    let (index, field) := rest.span (· != '.')
    let field ← field.tail?
    return (← parseNumber? indexBound index, trimBlank field)

/-- The value of a name. -/
def get? (info : SessionInfo) (name : String) : Option String :=
  if name = "tls.version" then some ((info.version.map TlsVersion.name).getD undefinedText)
  else if name = "tls.cipher" then some (info.cipher.getD undefinedText)
  else if name = "tls.servername" then some (info.serverName.getD undefinedText)
  else if name = "tls.renegotiations" then some (toString info.renegotiations)
  else if name = "tls.failed" then some (if info.failed then "true" else "false")
  else
    match name.toList with
    | 't' :: 'l' :: 's' :: '.' :: 'c' :: 'e' :: 'r' :: 't' :: rest => do
      let (index, field) ← certificateField? rest
      fieldOf? (← info.certificate? index) field
    | _ => .none

end SessionInfo
end TlsTransport
